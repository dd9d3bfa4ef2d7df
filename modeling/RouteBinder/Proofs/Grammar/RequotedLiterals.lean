import RouteBinder.Proofs.Grammar.LiteralValues

/-!
# RouteBinder.Proofs.Grammar.RequotedLiterals

**The content of a literal between single quotes.** What is written between the quotes of one literal can be
put between single quotes as it is, escapes and all. It denotes what it did before, unless there is
something in it that may not stand between single quotes without a backslash: an apostrophe or the end of
a line (`Content.contentUnits?_eq`). When each apostrophe gets a backslash of its own, this does harm to one that
has a backslash already: the two backslashes are an escape, and the apostrophe ends the literal
(`Content.contentUnits?_guardQuotes`).

`Escape` says once which escapes there are, and `Content` which pieces the content of a literal consists of;
`marked` tells the characters that stand behind a backslash from the others.
-/

namespace RouteBinder.Grammar

open Text

variable {quote c : Char} {front after rest text : List Char} {next other : Option Char} {value : List Nat}
  {width : Nat}

/-! ### Escapes -/

/-- What is written behind a backslash, the character that comes next, and what the escape denotes. -/
inductive Escape : List Char → Option Char → List Nat → Prop where
  | byte {digits : List Char} {unit : Nat} (next : Option Char) (hlength : digits.length = 2)
      (hunit : hexadecimal? digits = some unit) : Escape ('x' :: digits) next [unit]
  | unit {digits : List Char} {unit : Nat} (next : Option Char) (hlength : digits.length = 4)
      (hunit : hexadecimal? digits = some unit) : Escape ('u' :: digits) next [unit]
  | point {digits : List Char} {point : Nat} (next : Option Char) (hne : digits ≠ [])
      (hdigits : ∀ d ∈ digits, isHexDigit d = true) (hpoint : hexadecimal? digits = some point)
      (hle : point ≤ 0x10FFFF) : Escape ('u' :: '\x7b' :: (digits ++ ['\x7d'])) next (unitsOf point)
  | zero {next : Option Char} (hnext : ∀ d ∈ next, d.isDigit = false) : Escape ['0'] next [0]
  | lineEnd (next : Option Char) : Escape ['\r', '\n'] next []
  | line {c : Char} {next : Option Char} (hc : endsLineComment c = true)
      (hnext : c = '\r' → next ≠ some '\n') : Escape [c] next []
  | char {c : Char} (next : Option Char) (hletter : c ≠ 'x' ∧ c ≠ 'u') (hdigit : c.isDigit = false)
      (hline : endsLineComment c = false) : Escape [c] next ((control? c).elim (unitsOf c.toNat) ([·]))

theorem hexadecimalOf?_eq_some_iff {count unit : Nat} : hexadecimalOf? count rest = some unit ↔
    ∃ digits after, rest = digits ++ after ∧ digits.length = count ∧ hexadecimal? digits = some unit := by
  rw [hexadecimalOf?, Option.ite_none_right_eq_some]
  constructor
  · rintro ⟨hle, hunit⟩
    exact ⟨rest.take count, rest.drop count, (List.take_append_drop _ _).symm, List.length_take_of_le hle,
      hunit⟩
  · rintro ⟨digits, after, rfl, rfl, hunit⟩
    rw [List.take_left]
    exact ⟨by simp, hunit⟩

theorem bracedEscape?_eq_some_iff : bracedEscape? rest = some (value, width) ↔
    ∃ digits point after, rest = digits ++ '\x7d' :: after ∧ digits ≠ [] ∧
      (∀ d ∈ digits, isHexDigit d = true) ∧ hexadecimal? digits = some point ∧ point ≤ 0x10FFFF ∧
      value = unitsOf point ∧ width = digits.length + 3 := by
  simp only [bracedEscape?, Option.ite_none_right_eq_some, Bool.and_eq_true, Bool.not_eq_true',
    List.isEmpty_eq_false_iff, beq_iff_eq, Option.map_eq_some_iff, Option.filter_eq_some_iff,
    decide_eq_true_eq, Prod.mk.injEq]
  constructor
  · rintro ⟨⟨hne, hclosing⟩, point, ⟨hpoint, hle⟩, hvalue, hwidth⟩
    obtain ⟨after, hafter⟩ := List.head?_eq_some_iff.1 hclosing
    have hsplit := List.prefix_iff_eq_append.1 (List.takeWhile_prefix isHexDigit (l := rest))
    rw [hafter] at hsplit
    exact ⟨_, point, after, hsplit.symm, hne, List.all_eq_true.1 List.all_takeWhile, hpoint, hle,
      hvalue.symm, hwidth.symm⟩
  · rintro ⟨digits, point, after, rfl, hne, hdigits, hpoint, hle, rfl, rfl⟩
    have htake : (digits ++ '\x7d' :: after).takeWhile isHexDigit = digits := by
      rw [List.takeWhile_append_of_pos hdigits, List.takeWhile_cons_of_neg (by decide), List.append_nil]
    rw [htake, List.drop_left]
    exact ⟨⟨hne, rfl⟩, point, ⟨hpoint, hle⟩, rfl, rfl⟩

theorem isHexDigit_of_hexDigit? {digit : Nat} (h : hexDigit? c = some digit) : isHexDigit c = true := by
  rw [hexDigit?] at h
  simp only [isHexDigit, Bool.or_eq_true]
  split at h
  · exact .inl (.inl ‹_›)
  split at h
  · exact .inl (.inr ‹_›)
  split at h
  · exact .inr ‹_›
  · cases h

theorem hexDigits_of_hexadecimal? {digits : List Char} {unit : Nat} (h : hexadecimal? digits = some unit) :
    ∀ d ∈ digits, isHexDigit d = true := by
  have hfold : ∀ start, digits.foldlM (fun value c => (hexDigit? c).map (16 * value + ·)) start = some unit →
      ∀ d ∈ digits, isHexDigit d = true := by
    clear h
    induction digits with
    | nil => exact fun _ _ _ hd => absurd hd List.not_mem_nil
    | cons d rest ih =>
        intro start h
        obtain ⟨following, hfirst, hrest⟩ := Option.bind_eq_some_iff.1 h
        obtain ⟨digit, hdigit, -⟩ := Option.map_eq_some_iff.1 hfirst
        exact List.forall_mem_cons.2 ⟨isHexDigit_of_hexDigit? hdigit, ih following hrest⟩
  exact hfold 0 h

theorem plain_of_endsLineComment (h : endsLineComment c = true) :
    c ≠ 'x' ∧ c ≠ 'u' ∧ c.isDigit = false := by
  simp only [endsLineComment, isLineBreak, Bool.or_eq_true, beq_iff_eq] at h
  rcases h with ((rfl | hcode) | hcode) | rfl
  · decide
  · obtain rfl : c = Char.ofNat 0x2028 := by rw [← hcode, Char.ofNat_toNat]
    decide
  · obtain rfl : c = Char.ofNat 0x2029 := by rw [← hcode, Char.ofNat_toNat]
    decide
  · decide

/-- The escape that is read, and what is left behind it. -/
theorem exists_escape (h : escape? rest = some (value, width)) :
    ∃ front after, rest = front ++ after ∧ width = front.length ∧ Escape front after.head? value := by
  cases rest with
  | nil => cases h
  | cons c rest =>
      simp only [escape?] at h
      split at h
      · rename_i hx
        obtain rfl := beq_iff_eq.1 hx
        obtain ⟨unit, hunit, heq⟩ := Option.map_eq_some_iff.1 h
        cases heq
        obtain ⟨digits, after, rfl, hlength, hunit⟩ := hexadecimalOf?_eq_some_iff.1 hunit
        exact ⟨_, after, rfl, by rw [List.length_cons, hlength], .byte _ hlength hunit⟩
      rename_i hx
      split at h
      · rename_i hu
        obtain rfl := beq_iff_eq.1 hu
        split at h
        · rename_i hbrace
          obtain ⟨tail, rfl⟩ := List.head?_eq_some_iff.1 (beq_iff_eq.1 hbrace)
          obtain ⟨digits, point, after, htail, hne, hdigits, hpoint, hle, rfl, rfl⟩ :=
            bracedEscape?_eq_some_iff.1 h
          rw [List.tail_cons] at htail
          subst htail
          exact ⟨'u' :: '\x7b' :: (digits ++ ['\x7d']), after, by simp, by simp,
            .point _ hne hdigits hpoint hle⟩
        · obtain ⟨unit, hunit, heq⟩ := Option.map_eq_some_iff.1 h
          cases heq
          obtain ⟨digits, after, rfl, hlength, hunit⟩ := hexadecimalOf?_eq_some_iff.1 hunit
          exact ⟨_, after, rfl, by rw [List.length_cons, hlength], .unit _ hlength hunit⟩
      rename_i hu
      split at h
      · obtain ⟨hzero, heq⟩ := Option.ite_none_right_eq_some.1 h
        cases heq
        rw [Bool.and_eq_true, beq_iff_eq] at hzero
        obtain ⟨rfl, hnext⟩ := hzero
        exact ⟨['0'], rest, rfl, rfl, .zero (by simpa [Option.any_eq_false] using hnext)⟩
      rename_i hdigit
      split at h
      · rename_i hend
        rw [Bool.and_eq_true, beq_iff_eq, beq_iff_eq] at hend
        obtain ⟨rfl, hfeed⟩ := hend
        obtain ⟨after, rfl⟩ := List.head?_eq_some_iff.1 hfeed
        cases h
        exact ⟨['\r', '\n'], after, rfl, rfl, .lineEnd _⟩
      rename_i hend
      split at h
      · rename_i hline
        cases h
        exact ⟨[c], rest, rfl, rfl, .line hline (by simpa using hend)⟩
      · rename_i hline
        rw [beq_iff_eq] at hx hu
        cases h
        exact ⟨[c], rest, rfl, rfl, .char _ ⟨hx, hu⟩ (by simpa using hdigit) (by simpa using hline)⟩

/-- Of what is behind an escape, no more than the next character makes a difference. -/
theorem Escape.escape?_eq (h : Escape front after.head? value) :
    escape? (front ++ after) = some (value, front.length) := by
  generalize hnext : after.head? = next at h
  cases h with
  | byte _ hlength hunit =>
      have hunit := hexadecimalOf?_eq_some_iff.2 ⟨_, after, rfl, hlength, hunit⟩
      simp [escape?, hunit, hlength]
  | @unit digits _ _ hlength hunit =>
      obtain ⟨d, rest, rfl⟩ := List.exists_cons_of_length_pos (by omega : 0 < digits.length)
      have hbrace : d ≠ '\x7b' := by
        rintro rfl
        exact absurd (hexDigits_of_hexadecimal? hunit _ List.mem_cons_self) (by decide)
      have hunit := hexadecimalOf?_eq_some_iff.2 ⟨_, after, rfl, hlength, hunit⟩
      rw [List.cons_append] at hunit
      simp [escape?, hunit, hlength, hbrace]
  | point _ hne hdigits hpoint hle =>
      have hescape := bracedEscape?_eq_some_iff.2 ⟨_, _, after, rfl, hne, hdigits, hpoint, hle, rfl, rfl⟩
      simp [escape?, hescape]
  | zero hzero =>
      have hany : after.head?.any Char.isDigit = false := by
        rw [hnext]
        simpa [Option.any_eq_false] using hzero
      simp [escape?, hany]
  | lineEnd => simp [escape?]
  | line hline hfeed =>
      have hend : ¬ (_ = '\r' ∧ after.head? = some '\n') := fun hend =>
        hfeed hend.1 (hnext.symm.trans hend.2)
      simp [escape?, plain_of_endsLineComment hline, hend, hline]
  | char _ hletter hdigit hline =>
      have hreturn : _ ≠ '\r' := ne_of_apply_ne endsLineComment (by rw [hline]; decide)
      simp [escape?, hletter, hdigit, hline, hreturn]

/-- A backslash in the place of what came next does not make an escape longer. -/
theorem Escape.congr (h : Escape front next value) (hother : other = next ∨ other = some '\\') :
    Escape front other value := by
  rcases hother with rfl | rfl
  · exact h
  · cases h with
    | byte _ hlength hunit => exact .byte _ hlength hunit
    | unit _ hlength hunit => exact .unit _ hlength hunit
    | point _ hne hdigits hpoint hle => exact .point _ hne hdigits hpoint hle
    | zero _ =>
        refine .zero fun d hd => ?_
        obtain rfl := Option.some.inj hd
        rfl
    | lineEnd => exact .lineEnd _
    | line hline _ => exact .line hline fun _ => by decide
    | char _ hletter hdigit hline => exact .char _ hletter hdigit hline

/-! ### Characters behind a backslash -/

/-- The characters of a content, each with whether a backslash stands in front of it that is not behind another
one itself. A line feed belongs to the carriage return in front of it. -/
def marked (escaped : Bool) : List Char → List (Char × Bool)
  | [] => []
  | c :: rest =>
    (c, escaped) :: marked (if escaped then c == '\r' && rest.head? == some '\n' else c == '\\') rest

/-- Characters that may not stand between single quotes as they are. -/
def closers : List Char := ['\x27', '\n', '\r']

theorem forall_mem_closers {p : Char → Prop} : (∀ c ∈ closers, p c) ↔ p '\x27' ∧ p '\n' ∧ p '\r' := by
  simp [closers]

theorem marked_append (h : '\\' ∉ text) (after : List Char) :
    marked false (text ++ after) = text.map (·, false) ++ marked false after := by
  induction text with
  | nil => rfl
  | cons c rest ih =>
      rw [List.mem_cons, not_or] at h
      have hc : (c == '\\') = false := by simpa using Ne.symm h.1
      simp [marked, hc, ih h.2]

theorem not_mem_hexDigits {digits : List Char} (hdigits : ∀ d ∈ digits, isHexDigit d = true) :
    '\\' ∉ digits ∧ ∀ c ∈ closers, c ∉ digits := by
  have hnot {c : Char} (hc : isHexDigit c = false) : c ∉ digits := fun hmem =>
    Bool.false_ne_true (hc.symm.trans (hdigits c hmem))
  exact ⟨hnot (by decide), forall_mem_closers.2 ⟨hnot (by decide), hnot (by decide), hnot (by decide)⟩⟩

/-- These are the marks of an escape that stands behind a backslash. Only its first character can be one that
may not stand alone, and a line feed behind it. -/
structure MarksEscape (front after : List Char) (marks : List (Char × Bool)) : Prop where
  marked_eq : marked true (front ++ after) = marks ++ marked false after
  unmarked_not_mem : ∀ c ∈ closers, (c, false) ∉ marks
  apostrophe_mem_iff : ('\x27', true) ∈ marks ↔ front = ['\x27']

theorem marksEscape_cons (hc : c ≠ '\r' ∧ c ≠ '\x27') (hbackslash : '\\' ∉ text)
    (hclosers : ∀ d ∈ closers, d ∉ text) :
    MarksEscape (c :: text) after ((c, true) :: text.map (·, false)) where
  marked_eq := by
    have hreturn : (c == '\r') = false := by simpa using hc.1
    simp [marked, hreturn, marked_append hbackslash]
  unmarked_not_mem := by simpa using hclosers
  apostrophe_mem_iff := by simp [hc.2, Ne.symm hc.2]

theorem marksEscape_singleton (hc : c = '\r' → after.head? ≠ some '\n') :
    MarksEscape [c] after [(c, true)] where
  marked_eq := by
    have hend : (c == '\r' && after.head? == some '\n') = false := by simpa using hc
    simp [marked, hend]
  unmarked_not_mem := by simp
  apostrophe_mem_iff := by simp [eq_comm]

theorem Escape.exists_marks (h : Escape front after.head? value) : ∃ marks, MarksEscape front after marks := by
  generalize hnext : after.head? = next at h
  cases h with
  | byte _ _ hunit =>
      obtain ⟨hbackslash, hclosers⟩ := not_mem_hexDigits (hexDigits_of_hexadecimal? hunit)
      exact ⟨_, marksEscape_cons (by decide) hbackslash hclosers⟩
  | unit _ _ hunit =>
      obtain ⟨hbackslash, hclosers⟩ := not_mem_hexDigits (hexDigits_of_hexadecimal? hunit)
      exact ⟨_, marksEscape_cons (by decide) hbackslash hclosers⟩
  | point _ _ hdigits _ _ =>
      obtain ⟨hbackslash, hclosers⟩ := not_mem_hexDigits hdigits
      refine ⟨_, marksEscape_cons (by decide) (by simpa using hbackslash) fun c hc => ?_⟩
      have hbraces : ∀ c ∈ closers, c ≠ '\x7b' ∧ c ≠ '\x7d' := forall_mem_closers.2 (by decide)
      simpa [hbraces c hc] using hclosers c hc
  | zero _ => exact ⟨_, marksEscape_singleton fun hreturn => absurd hreturn (by decide)⟩
  | lineEnd => exact ⟨[('\r', true), ('\n', true)], by simp [marked], by simp, by simp⟩
  | line _ hfeed => exact ⟨_, marksEscape_singleton (hnext ▸ hfeed)⟩
  | char _ _ _ hline =>
      refine ⟨_, marksEscape_singleton fun hreturn => ?_⟩
      subst hreturn
      cases hline

/-! ### Pieces of a content -/

/-- The pieces that a content between two quotes consists of, and what they denote. -/
inductive Content (quote : Char) : List Char → List Nat → Prop where
  | nil : Content quote [] []
  | escape {front after : List Char} {first value : List Nat} (hescape : Escape front after.head? first)
      (hafter : Content quote after value) : Content quote ('\\' :: (front ++ after)) (first ++ value)
  | lineEnd {front after : List Char} {value : List Nat} (hquote : quote = '\x60')
      (hfront : front = ['\r', '\n'] ∨ front = ['\r'] ∧ after.head? ≠ some '\n')
      (hafter : Content quote after value) :
      Content quote (front ++ after) (unitsOf '\n'.toNat ++ value)
  | plain {c : Char} {rest : List Char} {value : List Nat}
      (hitem : item? quote c rest = some (unitsOf c.toNat, 0)) (hbackslash : c ≠ '\\')
      (hreturn : c ≠ '\r') (hrest : Content quote rest value) :
      Content quote (c :: rest) (unitsOf c.toNat ++ value)

theorem contentUnits?_append (front after : List Char) :
    contentUnits? quote front.length (front ++ after) = contentUnits? quote 0 after := by
  induction front with
  | nil => rfl
  | cons c front ih => exact ih

theorem exists_append_of_contentUnits? (h : contentUnits? quote width text = some value) :
    ∃ front after, text = front ++ after ∧ front.length = width ∧
      contentUnits? quote 0 after = some value := by
  induction text generalizing width with
  | nil =>
      obtain ⟨rfl, -⟩ := Option.ite_none_right_eq_some.1 h
      exact ⟨[], [], rfl, rfl, h⟩
  | cons c rest ih =>
      cases width with
      | zero => exact ⟨[], c :: rest, rfl, rfl, h⟩
      | succ width =>
          obtain ⟨front, after, rfl, rfl, hafter⟩ := ih h
          exact ⟨c :: front, after, rfl, rfl, hafter⟩

/-- What a character denotes that is not behind a backslash: the end of a line in a template is a line feed. -/
theorem item?_cases (h : item? quote c rest = some (value, width)) :
    c = '\\' ∧ escape? rest = some (value, width) ∨
      c = '\r' ∧ quote = '\x60' ∧ value = unitsOf '\n'.toNat ∧
        width = (if rest.head? == some '\n' then 1 else 0) ∨
      c ≠ '\\' ∧ c ≠ '\r' ∧ value = unitsOf c.toNat ∧ width = 0 := by
  by_cases hbackslash : c = '\\'
  · subst hbackslash
    rw [item?] at h
    exact .inl ⟨rfl, (Option.ite_none_left_eq_some.1 h).2⟩
  by_cases hreturn : c = '\r'
  · subst hreturn
    obtain ⟨-, h⟩ := Option.ite_none_left_eq_some.1 h
    rw [if_neg (by decide)] at h
    split at h
    · rename_i hquote
      have hdollar : ('\r' == '$') = false := by decide
      rw [hdollar, Bool.false_and, if_neg Bool.false_ne_true, if_pos (beq_self_eq_true _)] at h
      cases h
      exact .inr (.inl ⟨rfl, beq_iff_eq.1 hquote, rfl, rfl⟩)
    · cases h
  · obtain ⟨hvalue, hwidth⟩ := item?_eq (Ne.symm hbackslash) (Ne.symm hreturn) h
    exact .inr (.inr ⟨hbackslash, hreturn, hvalue, hwidth⟩)

theorem content_of_contentUnits? : ∀ {text : List Char} {value : List Nat},
    contentUnits? quote 0 text = some value → Content quote text value
  | [], _, h => by
      cases h
      exact .nil
  | c :: rest, _, h => by
      obtain ⟨⟨first, width⟩, hitem, h⟩ := Option.bind_eq_some_iff.1 h
      obtain ⟨others, hothers, heq⟩ := Option.bind_eq_some_iff.1 h
      cases heq
      obtain ⟨skipped, after, rfl, rfl, hafter⟩ := exists_append_of_contentUnits? hothers
      have hcontent := content_of_contentUnits? hafter
      rcases item?_cases hitem with
        ⟨rfl, hescape⟩ | ⟨rfl, hquote, rfl, hlength⟩ | ⟨hbackslash, hreturn, rfl, hlength⟩
      · obtain ⟨front, others, hsplit, hlength, hescape⟩ := exists_escape hescape
        obtain ⟨rfl, rfl⟩ := List.append_inj hsplit hlength
        exact .escape hescape hcontent
      · refine @Content.lineEnd quote ('\r' :: skipped) after _ hquote ?_ hcontent
        split at hlength
        · rename_i hfeed
          obtain ⟨d, rfl⟩ := List.length_eq_one_iff.1 hlength
          obtain rfl := Option.some.inj (beq_iff_eq.1 hfeed)
          exact .inl rfl
        · rename_i hfeed
          obtain rfl := List.length_eq_zero_iff.1 hlength
          exact .inr ⟨rfl, fun hnext => hfeed (beq_iff_eq.2 hnext)⟩
      · obtain rfl := List.length_eq_zero_iff.1 hlength
        exact .plain (hlength ▸ hitem) hbackslash hreturn hcontent
termination_by text => text.length

theorem contentUnits?_escape (h : Escape front after.head? value) :
    contentUnits? '\x27' 0 ('\\' :: (front ++ after)) =
      (contentUnits? '\x27' 0 after).bind fun others => some (value ++ others) := by
  have hitem : item? '\x27' '\\' (front ++ after) = some (value, front.length) := h.escape?_eq
  rw [contentUnits?, hitem]
  show (contentUnits? '\x27' front.length (front ++ after)).bind _ = _
  rw [contentUnits?_append]
  rfl

theorem contentUnits?_plain (hc : c ∉ closers) (hbackslash : c ≠ '\\') (rest : List Char) :
    contentUnits? '\x27' 0 (c :: rest) =
      (contentUnits? '\x27' 0 rest).bind fun others => some (unitsOf c.toNat ++ others) := by
  simp only [closers, List.mem_cons, List.not_mem_nil, or_false, not_or] at hc
  have hitem : item? '\x27' c rest = some (unitsOf c.toNat, 0) := by
    simp [item?, hc, hbackslash]
  rw [contentUnits?, hitem]
  rfl

theorem contentUnits?_closer (hc : c ∈ closers) (rest : List Char) :
    contentUnits? '\x27' 0 (c :: rest) = none := by
  simp only [closers, List.mem_cons, List.not_mem_nil, or_false] at hc
  rcases hc with rfl | rfl | rfl <;> rfl

/-! ### Copies of a content -/

/-- No backslash stands in front of a character in it that needs one between single quotes. -/
def Exposed (text : List Char) : Prop := ∃ c ∈ closers, (c, false) ∈ marked false text

instance (text : List Char) : Decidable (Exposed text) :=
  List.decidableBEx (fun c => (c, false) ∈ marked false text) closers

/-- An apostrophe in it has a backslash. -/
def Guarded (text : List Char) : Prop := ('\x27', true) ∈ marked false text

instance (text : List Char) : Decidable (Guarded text) :=
  inferInstanceAs (Decidable (('\x27', true) ∈ marked false text))

/-- The text with a backslash in front of each apostrophe. -/
def guardQuotes (text : List Char) : List Char :=
  text.flatMap fun c => if c == '\x27' then ['\\', '\x27'] else [c]

theorem exposed_cons (hbackslash : c ≠ '\\') : Exposed (c :: rest) ↔ c ∈ closers ∨ Exposed rest := by
  have hstate : (c == '\\') = false := by simpa using hbackslash
  simp only [Exposed, marked, Bool.false_eq_true, if_false, hstate, List.mem_cons, Prod.mk.injEq, and_true]
  constructor
  · rintro ⟨d, hd, rfl | hmem⟩
    · exact .inl hd
    · exact .inr ⟨d, hd, hmem⟩
  · rintro (hc | ⟨d, hd, hmem⟩)
    · exact ⟨c, hc, .inl rfl⟩
    · exact ⟨d, hd, .inr hmem⟩

theorem Escape.exposed_iff (h : Escape front after.head? value) :
    Exposed ('\\' :: (front ++ after)) ↔ Exposed after := by
  obtain ⟨marks, hmarks, hclosers, -⟩ := h.exists_marks
  refine exists_congr fun c => and_congr_right fun hc => ?_
  have hne : c ≠ '\\' := by
    rintro rfl
    exact absurd hc (by decide)
  simp [marked, hmarks, hclosers c hc, hne]

/-- As it is, a content denotes the same between single quotes, unless it has something exposed in it. -/
theorem Content.contentUnits?_eq (h : Content quote text value) :
    contentUnits? '\x27' 0 text = if Exposed text then none else some value := by
  induction h with
  | nil => rfl
  | escape hescape _ ih =>
      rw [contentUnits?_escape hescape, ih]
      simp only [hescape.exposed_iff]
      split <;> rfl
  | @lineEnd front after _ _ hfront _ _ =>
      obtain ⟨rest, hrest⟩ : ∃ rest, front ++ after = '\r' :: rest := by
        rcases hfront with rfl | ⟨rfl, -⟩ <;> exact ⟨_, rfl⟩
      rw [hrest, contentUnits?_closer (by decide), if_pos ((exposed_cons (by decide)).2 (.inl (by decide)))]
  | @plain c rest _ _ hbackslash _ _ ih =>
      simp only [exposed_cons hbackslash]
      by_cases hc : c ∈ closers
      · rw [contentUnits?_closer hc, if_pos (.inl hc)]
      · rw [contentUnits?_plain hc hbackslash, ih]
        simp only [hc, false_or]
        split <;> rfl

theorem guarded_cons (hbackslash : c ≠ '\\') : Guarded (c :: rest) ↔ Guarded rest := by
  have hstate : (c == '\\') = false := by simpa using hbackslash
  simp [Guarded, marked, hstate]

theorem Escape.guarded_iff (h : Escape front after.head? value) :
    Guarded ('\\' :: (front ++ after)) ↔ front = ['\x27'] ∨ Guarded after := by
  obtain ⟨marks, hmarks, -, hguarded⟩ := h.exists_marks
  simp [Guarded, marked, hmarks, hguarded]

theorem guardQuotes_append (text after : List Char) :
    guardQuotes (text ++ after) = guardQuotes text ++ guardQuotes after := List.flatMap_append

theorem guardQuotes_cons (hc : c ≠ '\x27') (rest : List Char) :
    guardQuotes (c :: rest) = c :: guardQuotes rest := by
  simp [guardQuotes, hc]

theorem guardQuotes_eq_self (h : '\x27' ∉ text) : guardQuotes text = text := by
  induction text with
  | nil => rfl
  | cons c rest ih =>
      rw [List.mem_cons, not_or] at h
      rw [guardQuotes_cons (Ne.symm h.1), ih h.2]

theorem head?_guardQuotes (text : List Char) :
    (guardQuotes text).head? = text.head? ∨ (guardQuotes text).head? = some '\\' := by
  cases text with
  | nil => exact .inl rfl
  | cons c rest =>
      by_cases hc : c = '\x27'
      · subst hc
        exact .inr rfl
      · rw [guardQuotes_cons hc]
        exact .inl rfl

theorem fst_marked (escaped : Bool) (text : List Char) : (marked escaped text).map Prod.fst = text := by
  induction text generalizing escaped with
  | nil => rfl
  | cons c rest ih => rw [marked, List.map_cons, ih]

/-- An apostrophe stands in an escape only when it is the escaped character. -/
theorem Escape.apostrophe_not_mem (h : Escape front after.head? value) (hfront : front ≠ ['\x27']) :
    '\x27' ∉ front := by
  obtain ⟨marks, hmarks, hclosers, hguarded⟩ := h.exists_marks
  have hfst := congrArg (List.map Prod.fst) hmarks
  rw [List.map_append, fst_marked, fst_marked] at hfst
  rw [List.append_cancel_right hfst]
  intro hmem
  obtain ⟨⟨c, escaped⟩, hmark, rfl⟩ := List.mem_map.1 hmem
  cases escaped with
  | false => exact hclosers '\x27' (by decide) hmark
  | true => exact hfront (hguarded.1 hmark)

/-- With a backslash in front of each apostrophe, the content of a string denotes the same between single
quotes, unless an apostrophe has one already. -/
theorem Content.contentUnits?_guardQuotes (h : Content quote text value) (hquote : quote ≠ '\x60') :
    contentUnits? '\x27' 0 (guardQuotes text) = if Guarded text then none else some value := by
  induction h with
  | nil => rfl
  | @escape front after first value hescape _ ih =>
      simp only [hescape.guarded_iff]
      by_cases hfront : front = ['\x27']
      · -- The two backslashes are an escape, and the apostrophe behind them ends the literal.
        subst hfront
        have hbackslash : Escape ['\\'] (guardQuotes ('\x27' :: after)).tail.head? (unitsOf '\\'.toNat) :=
          .char _ (by decide) (by decide) (by decide)
        have htext : guardQuotes ('\\' :: (['\x27'] ++ after)) =
            '\\' :: (['\\'] ++ (guardQuotes ('\x27' :: after)).tail) := rfl
        rw [htext, contentUnits?_escape hbackslash, if_pos (.inl rfl)]
        rfl
      · have htext : guardQuotes ('\\' :: (front ++ after)) = '\\' :: (front ++ guardQuotes after) := by
          rw [guardQuotes_cons (by decide), guardQuotes_append,
            guardQuotes_eq_self (hescape.apostrophe_not_mem hfront)]
        rw [htext, contentUnits?_escape (hescape.congr (head?_guardQuotes after)), ih]
        simp only [hfront, false_or]
        split <;> rfl
  | lineEnd hback _ _ _ => exact absurd hback hquote
  | @plain c rest _ hitem hbackslash hreturn _ ih =>
      simp only [guarded_cons hbackslash]
      by_cases hc : c = '\x27'
      · subst hc
        have hescape : Escape ['\x27'] (guardQuotes rest).head? (unitsOf '\x27'.toNat) :=
          .char _ (by decide) (by decide) (by decide)
        have htext : guardQuotes ('\x27' :: rest) = '\\' :: (['\x27'] ++ guardQuotes rest) := rfl
        rw [htext, contentUnits?_escape hescape, ih]
        split <;> rfl
      · have hclosers : c ∉ closers := by
          have hfeed : c ≠ '\n' := by
            rintro rfl
            simp [item?, hquote] at hitem
          simp [closers, hc, hfeed, hreturn]
        rw [guardQuotes_cons hc, contentUnits?_plain hclosers hbackslash, ih]
        split <;> rfl

/-! ### Literals and names of properties -/

/-- What stands between the quotes of a literal is the content of one. -/
theorem exists_contentUnits? {literal : String} (h : literalUnits? literal = some value) :
    ∃ quote, literal.toList.head? = some quote ∧
      contentUnits? quote 0 (inside literal).toList = some value := by
  obtain ⟨quote, content, -, htext, hcontent⟩ := literalUnits?_eq_some_iff.1 h
  have hinside : (inside literal).toList = content := by
    simp [inside, htext]
  rw [htext, hinside]
  exact ⟨quote, rfl, hcontent⟩

theorem literalUnits?_of_toList {literal : String} (h : literal.toList = '\x27' :: (text ++ ['\x27'])) :
    literalUnits? literal = contentUnits? '\x27' 0 text := by
  rw [literalUnits?, h]
  simp

/-- What a name of a property denotes that is written between single quotes or without any. The characters that
it may start with and go on with in the latter case are those of the language. -/
def nameUnits? (starts continues : Char → Bool) (name : String) : Option (List Nat) :=
  match name.toList with
  | [] => none
  | first :: rest =>
    if first == '\x27' then literalUnits? name
    else if starts first && rest.all continues then some (codeUnits name.toList) else none

end RouteBinder.Grammar
