import RouteBinder.Grammar.Literal
import RouteBinder.Proofs.Text.Quoted
import RouteBinder.Text.Lines

/-!
# RouteBinder.Proofs.Grammar.LiteralValues

**What string literals denote.** A string is a sequence of code units; `literalUnits?` reads it from the text
of a literal in a module. Between single or double quotes no line may end, a template reads every line end as
a line feed, and all of them know the same escapes. No two texts have the same code units (`codeUnits_inj`).

An escape is always longer than what it denotes (`length_escape?_le`). So the content of a literal, written
between single quotes with its backslashes escaped, denotes what the literal denotes exactly when there is
no escape in it and no carriage return, which only a template may contain (`literalUnits?_inside_iff`).
-/

namespace RouteBinder.Grammar

open Text Quoted

/-! ### Code units -/

/-- The code units of a code point. -/
def unitsOf (point : Nat) : List Nat :=
  if point < 0x10000 then [point]
  else [0xD800 + (point - 0x10000) / 0x400, 0xDC00 + (point - 0x10000) % 0x400]

/-- The code units of a text. -/
def codeUnits (text : List Char) : List Nat := text.flatMap fun c => unitsOf c.toNat

/-! ### Escapes -/

def hexDigit? (c : Char) : Option Nat :=
  if c.isDigit then some (c.toNat - '0'.toNat)
  else if 'a' ≤ c && c ≤ 'f' then some (c.toNat - 'a'.toNat + 10)
  else if 'A' ≤ c && c ≤ 'F' then some (c.toNat - 'A'.toNat + 10)
  else none

/-- The number that the digits stand for. -/
def hexadecimal? (digits : List Char) : Option Nat :=
  digits.foldlM (fun value c => (hexDigit? c).map (16 * value + ·)) 0

/-- The number that as many digits at the front stand for. -/
def hexadecimalOf? (count : Nat) (rest : List Char) : Option Nat :=
  if count ≤ rest.length then hexadecimal? (rest.take count) else none

/-- What the digits up to a closing brace denote, and the length of the escape whose opening brace has just
been passed. -/
def bracedEscape? (rest : List Char) : Option (List Nat × Nat) :=
  let digits := rest.takeWhile isHexDigit
  if !digits.isEmpty && (rest.drop digits.length).head? == some '\x7d' then
    ((hexadecimal? digits).filter (· ≤ 0x10FFFF)).map fun point => (unitsOf point, digits.length + 3)
  else none

/-- Letters that stand for a control character. -/
def control? : Char → Option Nat
  | 'b' => some 8
  | 't' => some 9
  | 'n' => some 10
  | 'v' => some 11
  | 'f' => some 12
  | 'r' => some 13
  | _ => none

/-- What the escape denotes whose backslash has just been passed, and its length. The end of a line denotes
nothing. Of the digits, only a zero that no other digit follows may stand here. -/
def escape? : List Char → Option (List Nat × Nat)
  | [] => none
  | c :: rest =>
    if c == 'x' then (hexadecimalOf? 2 rest).map fun unit => ([unit], 3)
    else if c == 'u' then
      if rest.head? == some '\x7b' then bracedEscape? rest.tail
      else (hexadecimalOf? 4 rest).map fun unit => ([unit], 5)
    else if c.isDigit then
      if c == '0' && !rest.head?.any Char.isDigit then some ([0], 1) else none
    else if c == '\r' && rest.head? == some '\n' then some ([], 2)
    else if endsLineComment c then some ([], 1)
    else some ((control? c).elim (unitsOf c.toNat) ([·]), 1)

/-! ### Literals -/

/-- What a character in a literal denotes, together with some of the characters behind it, and how many
these are. -/
def item? (quote c : Char) (rest : List Char) : Option (List Nat × Nat) :=
  if c == quote then none
  else if c == '\\' then escape? rest
  else if quote == '\x60' then
    if c == '$' && rest.head? == some '\x7b' then none
    else if c == '\r' then some (unitsOf '\n'.toNat, if rest.head? == some '\n' then 1 else 0)
    else some (unitsOf c.toNat, 0)
  else if c == '\n' || c == '\r' then none
  else some (unitsOf c.toNat, 0)

/-- What is written between two quotes denotes, after `skip` more characters. -/
def contentUnits? (quote : Char) (skip : Nat) : List Char → Option (List Nat)
  | [] => if skip = 0 then some [] else none
  | c :: rest =>
    match skip with
    | skip + 1 => contentUnits? quote skip rest
    | 0 => do
      let (value, width) ← item? quote c rest
      return value ++ (← contentUnits? quote width rest)

/-- The code units that a string literal, or a template without substitutions, denotes. -/
def literalUnits? (text : String) : Option (List Nat) :=
  match text.toList with
  | quote :: rest =>
    if (quote == '\x27' || quote == '\x22' || quote == '\x60') && rest.getLast? == some quote then
      contentUnits? quote 0 rest.dropLast
    else none
  | [] => none

variable {quote c : Char} {rest text : List Char} {value : List Nat} {skip width count : Nat}

@[simp]
theorem codeUnits_cons (c : Char) (rest : List Char) :
    codeUnits (c :: rest) = unitsOf c.toNat ++ codeUnits rest := List.flatMap_cons

theorem codeUnits_append (text other : List Char) :
    codeUnits (text ++ other) = codeUnits text ++ codeUnits other := List.flatMap_append

theorem length_unitsOf (point : Nat) : 1 ≤ (unitsOf point).length ∧ (unitsOf point).length ≤ 2 := by
  unfold unitsOf
  split <;> simp

theorem length_le_codeUnits (text : List Char) : text.length ≤ (codeUnits text).length := by
  induction text with
  | nil => exact Nat.le_refl 0
  | cons c rest ih =>
      have := (length_unitsOf c.toNat).1
      rw [codeUnits_cons, List.length_append, List.length_cons]
      omega

/-- The first unit tells whether there is a second one: only then it is one that no character has alone. -/
theorem unitsOf_append_inj {c d : Char} {units other : List Nat}
    (h : unitsOf c.toNat ++ units = unitsOf d.toNat ++ other) : c = d ∧ units = other := by
  have hc : c.toNat < 0xD800 ∨ 0xDFFF < c.toNat ∧ c.toNat < 0x110000 := c.valid
  have hd : d.toNat < 0xD800 ∨ 0xDFFF < d.toNat ∧ d.toNat < 0x110000 := d.valid
  rw [← Char.toNat_inj]
  unfold unitsOf at h
  split at h <;> split at h <;> simp only [List.cons_append, List.nil_append, List.cons.injEq] at h
  · exact h
  · omega
  · omega
  · exact ⟨by omega, h.2.2⟩

theorem codeUnits_eq_nil_iff : codeUnits text = [] ↔ text = [] := by
  refine ⟨fun h => ?_, fun h => h ▸ rfl⟩
  have hlength := length_le_codeUnits text
  rw [h] at hlength
  exact List.length_eq_zero_iff.1 (Nat.le_zero.1 hlength)

theorem codeUnits_inj {text other : List Char} : codeUnits text = codeUnits other ↔ text = other := by
  refine ⟨fun h => ?_, congrArg codeUnits⟩
  induction text generalizing other with
  | nil => exact (codeUnits_eq_nil_iff.1 h.symm).symm
  | cons c text ih =>
      cases other with
      | nil => exact codeUnits_eq_nil_iff.1 h
      | cons d other =>
          rw [codeUnits_cons, codeUnits_cons] at h
          obtain ⟨rfl, hrest⟩ := unitsOf_append_inj h
          rw [ih hrest]

/-! ### Escapes are longer than what they denote -/

theorem length_hexadecimalOf?_le {unit : Nat} (h : hexadecimalOf? count rest = some unit) :
    count ≤ rest.length :=
  (Option.ite_none_right_eq_some.1 h).1

theorem length_bracedEscape?_le (h : bracedEscape? rest = some (value, width)) :
    width ≤ rest.length + 2 ∧ value.length ≤ width := by
  obtain ⟨hdigits, h⟩ := Option.ite_none_right_eq_some.1 h
  obtain ⟨point, -, heq⟩ := Option.map_eq_some_iff.1 h
  obtain ⟨rfl, rfl⟩ := Prod.mk.inj heq
  rw [Bool.and_eq_true, beq_iff_eq, List.head?_drop] at hdigits
  have hclosing := (List.getElem?_eq_some_iff.1 hdigits.2).1
  have hpoint := (length_unitsOf point).2
  exact ⟨by omega, by omega⟩

theorem length_le_take (hwidth : width ≤ text.length) (hvalue : value.length ≤ width) :
    value.length ≤ (codeUnits (text.take width)).length := by
  have := length_le_codeUnits (text.take width)
  rw [List.length_take, Nat.min_eq_left hwidth] at this
  exact Nat.le_trans hvalue this

/-- An escape denotes at most as many code units as it has itself behind the backslash. -/
theorem length_escape?_le (h : escape? rest = some (value, width)) :
    value.length ≤ (codeUnits (rest.take width)).length := by
  cases rest with
  | nil => cases h
  | cons c rest =>
      simp only [escape?] at h
      split at h
      · obtain ⟨unit, hunit, heq⟩ := Option.map_eq_some_iff.1 h
        cases heq
        have := length_hexadecimalOf?_le hunit
        exact length_le_take (by simpa using this) (by simp)
      split at h
      · split at h
        · rename_i hbrace
          obtain ⟨tail, rfl⟩ := List.head?_eq_some_iff.1 (beq_iff_eq.1 hbrace)
          have hescape := length_bracedEscape?_le h
          exact length_le_take (by simpa using hescape.1) hescape.2
        · obtain ⟨unit, hunit, heq⟩ := Option.map_eq_some_iff.1 h
          cases heq
          have := length_hexadecimalOf?_le hunit
          exact length_le_take (by simpa using this) (by simp)
      split at h
      · obtain ⟨-, heq⟩ := Option.ite_none_right_eq_some.1 h
        cases heq
        exact length_le_take (by simp) (by simp)
      split at h
      · cases h
        exact Nat.zero_le _
      split at h
      · cases h
        exact Nat.zero_le _
      · cases h
        rw [List.take_succ_cons, List.take_zero, codeUnits_cons]
        have := (length_unitsOf c.toNat).1
        cases control? c with
        | none => simp
        | some unit => simpa using by omega

/-- Nothing but a backslash denotes less than it has itself. -/
theorem length_item?_le (h : item? quote c rest = some (value, width)) :
    value.length ≤ (codeUnits (c :: rest.take width)).length ∧
      ('\\' ∈ c :: rest.take width → value.length < (codeUnits (c :: rest.take width)).length) := by
  have hplain (hc : ¬ (c == '\\') = true) :
      (unitsOf c.toNat).length ≤ (codeUnits (c :: rest.take 0)).length ∧
        ('\\' ∈ c :: rest.take 0 → (unitsOf c.toNat).length < (codeUnits (c :: rest.take 0)).length) := by
    rw [beq_iff_eq] at hc
    simp [codeUnits, Ne.symm hc]
  unfold item? at h
  split at h
  · cases h
  split at h
  · have hlength := length_escape?_le h
    have hunit := (length_unitsOf c.toNat).1
    rw [codeUnits_cons, List.length_append]
    exact ⟨by omega, fun _ => by omega⟩
  rename_i hescape
  split at h
  · split at h
    · cases h
    split at h
    · rename_i hreturn
      obtain rfl := beq_iff_eq.1 hreturn
      cases h
      constructor
      · have hreturn := (length_unitsOf '\r'.toNat).1
        rw [codeUnits_cons, List.length_append]
        exact Nat.le_add_right_of_le hreturn
      · -- There is nothing but the line end.
        intro hbackslash
        split at hbackslash
        · rename_i hfeed
          obtain ⟨tail, rfl⟩ := List.head?_eq_some_iff.1 (beq_iff_eq.1 hfeed)
          exact absurd hbackslash (by simp)
        · exact absurd hbackslash (by simp)
    · cases h
      exact hplain hescape
  · split at h
    · cases h
    · cases h
      exact hplain hescape

/-- Any other character stands for itself. -/
theorem item?_eq (hbackslash : '\\' ≠ c) (hreturn : '\r' ≠ c)
    (h : item? quote c rest = some (value, width)) : value = unitsOf c.toNat ∧ width = 0 := by
  unfold item? at h
  split at h
  · cases h
  rw [if_neg (by simpa using hbackslash.symm)] at h
  split at h
  · split at h
    · cases h
    rw [if_neg (by simpa using hreturn.symm)] at h
    cases h
    exact ⟨rfl, rfl⟩
  · split at h
    · cases h
    cases h
    exact ⟨rfl, rfl⟩

/-! ### Contents of literals -/

/-- What a content denotes is shorter than the content when there is an escape in it. -/
theorem length_contentUnits?_le (h : contentUnits? quote skip text = some value) :
    value.length ≤ (codeUnits (text.drop skip)).length ∧
      ('\\' ∈ text.drop skip → value.length < (codeUnits (text.drop skip)).length) := by
  induction text generalizing skip value with
  | nil =>
      obtain ⟨rfl, heq⟩ := Option.ite_none_right_eq_some.1 h
      cases heq
      simp
  | cons c rest ih =>
      cases skip with
      | succ skip => exact ih h
      | zero =>
          obtain ⟨⟨first, width⟩, hitem, h⟩ := Option.bind_eq_some_iff.1 h
          obtain ⟨after, hafter, heq⟩ := Option.bind_eq_some_iff.1 h
          cases heq
          have hfirst := length_item?_le hitem
          have hafter := ih hafter
          have hsplit : c :: rest = (c :: rest.take width) ++ rest.drop width := by
            rw [List.cons_append, List.take_append_drop]
          rw [List.drop_zero, hsplit, codeUnits_append, List.length_append, List.length_append]
          refine ⟨Nat.add_le_add hfirst.1 hafter.1, fun hbackslash => ?_⟩
          rcases List.mem_append.1 hbackslash with hbackslash | hbackslash
          · exact Nat.add_lt_add_of_lt_of_le (hfirst.2 hbackslash) hafter.1
          · exact Nat.add_lt_add_of_le_of_lt hfirst.1 (hafter.2 hbackslash)

/-- Without escapes and carriage returns every character stands for itself. -/
theorem contentUnits?_eq_codeUnits (hbackslash : '\\' ∉ text) (hreturn : '\r' ∉ text)
    (h : contentUnits? quote 0 text = some value) : value = codeUnits text := by
  induction text generalizing value with
  | nil =>
      cases h
      rfl
  | cons c rest ih =>
      rw [List.mem_cons, not_or] at hbackslash hreturn
      obtain ⟨⟨first, width⟩, hitem, h⟩ := Option.bind_eq_some_iff.1 h
      obtain ⟨after, hafter, heq⟩ := Option.bind_eq_some_iff.1 h
      cases heq
      obtain ⟨rfl, rfl⟩ := item?_eq hbackslash.1 hreturn.1 hitem
      rw [ih hbackslash.2 hreturn.2 hafter, codeUnits_cons]

/-- The spelling of a character between single quotes denotes this character. -/
theorem contentUnits?_encodeChar_append (hc : c ≠ '\r') (rest : List Char) :
    contentUnits? '\x27' 0 (encodeChar c ++ rest) =
      (contentUnits? '\x27' 0 rest).bind fun after => some (unitsOf c.toNat ++ after) := by
  rcases encodeChar_cases c with ⟨rfl, -⟩ | ⟨rfl, -⟩ | ⟨rfl, -⟩ | ⟨hplain, hself⟩
  · rfl
  · rfl
  · rfl
  · have hitem : item? '\x27' c rest = some (unitsOf c.toNat, 0) := by
      simp [item?, hplain, hc]
    rw [hself, List.singleton_append, contentUnits?, hitem]
    rfl

/-- What is written between single quotes for a text denotes the text; only a carriage return may not stand
there. -/
theorem contentUnits?_encodeChar (text : List Char) :
    contentUnits? '\x27' 0 (text.flatMap encodeChar) =
      if '\r' ∈ text then none else some (codeUnits text) := by
  induction text with
  | nil => rfl
  | cons c rest ih =>
      rw [List.flatMap_cons]
      by_cases hc : c = '\r'
      · subst hc
        rw [if_pos List.mem_cons_self]
        rfl
      · rw [contentUnits?_encodeChar_append hc, ih]
        simp only [List.mem_cons, Ne.symm hc, false_or, codeUnits_cons]
        split <;> rfl

/-! ### Literals -/

theorem literalUnits?_eq_some_iff {text : String} : literalUnits? text = some value ↔
    ∃ quote content, quote ∈ ['\x27', '\x22', '\x60'] ∧ text.toList = quote :: (content ++ [quote]) ∧
      contentUnits? quote 0 content = some value := by
  unfold literalUnits?
  constructor
  · intro h
    split at h
    · rename_i quote rest htext
      obtain ⟨hquotes, h⟩ := Option.ite_none_right_eq_some.1 h
      rw [Bool.and_eq_true, beq_iff_eq] at hquotes
      obtain ⟨content, rfl⟩ := List.getLast?_eq_some_iff.1 hquotes.2
      rw [List.dropLast_concat] at h
      exact ⟨quote, content, by simpa [or_assoc] using hquotes.1, htext, h⟩
    · cases h
  · rintro ⟨quote, content, hquote, htext, h⟩
    have hquotes : (quote == '\x27' || quote == '\x22' || quote == '\x60') = true := by
      simpa [or_assoc] using hquote
    rw [htext]
    simp only [hquotes, List.getLast?_concat, beq_self_eq_true, Bool.and_self, if_true,
      List.dropLast_concat]
    exact h

theorem literalUnits?_literal (text : String) : literalUnits? (Quoted.literal text) =
    if '\r' ∈ text.toList then none else some (codeUnits text.toList) := by
  unfold literalUnits? Quoted.literal
  rw [String.toList_ofList, encode]
  simp only [beq_self_eq_true, Bool.true_or, Bool.true_and, List.getLast?_concat, if_true,
    List.dropLast_concat]
  exact contentUnits?_encodeChar text.toList

/-- The content of a literal, written as a literal of its own, denotes the same string exactly when it has
neither a backslash nor a carriage return. -/
theorem literalUnits?_inside_iff {text : String} (h : literalUnits? text = some value) :
    literalUnits? (Quoted.literal (inside text)) = some value ↔
      '\\' ∉ text.toList ∧ '\r' ∉ text.toList := by
  obtain ⟨quote, content, hquote, htext, hcontent⟩ := literalUnits?_eq_some_iff.1 h
  have hinside : (inside text).toList = content := by
    simp [inside, htext]
  have hmem {c : Char} (hc : c ∉ ['\x27', '\x22', '\x60']) : c ∈ text.toList ↔ c ∈ content := by
    have hne : c ≠ quote := fun heq => hc (heq ▸ hquote)
    simp [htext, hne]
  rw [literalUnits?_literal, hinside, hmem (by decide), hmem (by decide)]
  constructor
  · intro heq
    obtain ⟨hreturn, hsame⟩ := Option.ite_none_left_eq_some.1 heq
    refine ⟨fun hbackslash => ?_, hreturn⟩
    -- An escape would be longer than what it denotes.
    have hlength := (length_contentUnits?_le hcontent).2 hbackslash
    rw [List.drop_zero, Option.some.inj hsame] at hlength
    exact Nat.lt_irrefl _ hlength
  · rintro ⟨hbackslash, hreturn⟩
    rw [if_neg hreturn, contentUnits?_eq_codeUnits hbackslash hreturn hcontent]

/-- A code point of two code units, and a backslash that takes a line end away. -/
example : literalUnits? "'\\u\x7b1F600\x7d\\\nA'" = some [0xD83D, 0xDE00, 0x41] := by decide

end RouteBinder.Grammar
