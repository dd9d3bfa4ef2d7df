import RouteBinder.Proofs.Text.Lines
import RouteBinder.Text.Identifier

/-!
# RouteBinder.Proofs.Text.Mentions

**Names in texts that are moved.** A text mentions a name where the name stands in it with no
identifier character on either side (`mentions_iff`), and a member of it where a dot stands right behind
(`mentionsMember_iff`). What a text mentions is still mentioned when other text is put around it at a
safe distance (`Stands.append`), when it becomes one of several lines (`mentions_intercalate`), and when
it is indented (`mentions_indent`). Only the last needs something of the name: that it has no blanks in
it, which is so for names as they are written in programs (`IsName`).
-/

namespace RouteBinder.Text

/-- A name as it is written in a program. -/
structure IsName (name : String) : Prop where
  ne_nil : name.toList ≠ []
  isIdentifierChar : ∀ c ∈ name.toList, isIdentifierChar c = true

instance (name : String) : Decidable (IsName name) :=
  decidable_of_iff (name.toList ≠ [] ∧ name.toList.all isIdentifierChar = true)
    ⟨fun h => ⟨h.1, List.all_eq_true.1 h.2⟩, fun h => ⟨h.1, List.all_eq_true.2 h.2⟩⟩

/-- The text refers to the name: it has the name as one of its identifiers. -/
structure RefersTo (text name : String) : Prop where
  isName : IsName name
  mentions : mentions text name = true

instance (text name : String) : Decidable (RefersTo text name) :=
  decidable_of_iff (IsName name ∧ mentions text name = true) ⟨fun h => ⟨h.1, h.2⟩, fun h => ⟨h.1, h.2⟩⟩

/-! ### Where names stand -/

/-- Is the last character read one of identifiers? `joined` says so of what was read before. -/
def joinedAfter (joined : Bool) (before : List Char) : Bool :=
  before.foldl (fun _ c => isIdentifierChar c) joined

theorem joinedAfter_append (joined : Bool) (front back : List Char) :
    joinedAfter joined (front ++ back) = joinedAfter (joinedAfter joined front) back :=
  List.foldl_append

theorem joinedAfter_concat (joined : Bool) (front : List Char) (c : Char) :
    joinedAfter joined (front ++ [c]) = isIdentifierChar c := by
  rw [joinedAfter_append]
  rfl

theorem joinedAfter_of_suffix {back before : List Char} (hback : back <:+ before)
    (h : joinedAfter false before = false) : joinedAfter false back = false := by
  obtain ⟨front, rfl⟩ := hback
  rw [joinedAfter_append] at h
  cases back with
  | nil => rfl
  | cons c back => exact h

theorem startsOutside_append {after rest : List Char} (hafter : startsOutside after = true)
    (hrest : startsOutside rest = true) : startsOutside (after ++ rest) = true := by
  cases after with
  | nil => exact hrest
  | cons c after => exact hafter

theorem startsOutside_of_prefix {front after : List Char} (hfront : front <+: after)
    (h : startsOutside after = true) : startsOutside front = true := by
  obtain ⟨back, rfl⟩ := hfront
  cases front with
  | nil => rfl
  | cons c front => exact h

/-- The name stands in the text with no identifier character on either side. -/
def Stands (name text : List Char) : Prop :=
  ∃ before after, text = before ++ (name ++ after) ∧ joinedAfter false before = false ∧
    startsOutside after = true

/-- What `occurs` looks for. -/
theorem occurs_iff {name text : List Char} {follows : List Char → Bool} {joined : Bool} :
    occurs name follows joined text = true ↔
      ∃ before after, text = before ++ (name ++ after) ∧ joinedAfter joined before = false ∧
        follows after = true := by
  induction text generalizing joined with
  | nil =>
      simp only [occurs, Bool.or_false, Bool.and_eq_true, Bool.not_eq_true',
        List.isPrefixOf_iff_prefix, List.drop_nil]
      constructor
      · rintro ⟨⟨hjoined, hprefix⟩, hfollows⟩
        refine ⟨[], [], ?_, hjoined, hfollows⟩
        rw [List.prefix_nil.1 hprefix]
        rfl
      · rintro ⟨before, after, hnil, hjoined, hfollows⟩
        rw [eq_comm, List.append_eq_nil_iff, List.append_eq_nil_iff] at hnil
        obtain ⟨rfl, rfl, rfl⟩ := hnil
        exact ⟨⟨hjoined, List.nil_prefix⟩, hfollows⟩
  | cons c rest ih =>
      simp only [occurs, Bool.or_eq_true, Bool.and_eq_true, Bool.not_eq_true',
        List.isPrefixOf_iff_prefix, ih]
      constructor
      -- The name stands at the very beginning, or behind the first character.
      · rintro (⟨⟨hjoined, after, hafter⟩, hfollows⟩ | ⟨before, after, hrest, hjoined, hfollows⟩)
        · rw [← hafter, List.drop_left] at hfollows
          exact ⟨[], after, hafter.symm, hjoined, hfollows⟩
        · exact ⟨c :: before, after, by rw [hrest, List.cons_append], hjoined, hfollows⟩
      · rintro ⟨before, after, htext, hjoined, hfollows⟩
        cases before with
        | nil =>
            rw [List.nil_append] at htext
            refine Or.inl ⟨⟨hjoined, after, htext.symm⟩, ?_⟩
            rw [htext, List.drop_left]
            exact hfollows
        | cons d before =>
            rw [List.cons_append, List.cons.injEq] at htext
            obtain ⟨rfl, hrest⟩ := htext
            exact Or.inr ⟨before, after, hrest, hjoined, hfollows⟩

theorem mentions_iff {text name : String} :
    mentions text name = true ↔ Stands name.toList text.toList :=
  occurs_iff

/-- The name stands in the text with no identifier character in front of it and a dot behind it. -/
def StandsBeforeDot (name text : List Char) : Prop :=
  ∃ before after, text = before ++ (name ++ '.' :: after) ∧ joinedAfter false before = false

theorem mentionsMember_iff {text name : String} :
    mentionsMember text name = true ↔ StandsBeforeDot name.toList text.toList := by
  rw [mentionsMember, occurs_iff]
  constructor
  · rintro ⟨before, after, htext, hbefore, hdot⟩
    rw [beq_iff_eq, List.head?_eq_some_iff] at hdot
    obtain ⟨rest, rfl⟩ := hdot
    exact ⟨before, rest, htext, hbefore⟩
  · rintro ⟨before, rest, htext, hbefore⟩
    exact ⟨before, '.' :: rest, htext, hbefore, rfl⟩

/-- A dot ends an identifier. -/
theorem StandsBeforeDot.stands {name text : List Char} (h : StandsBeforeDot name text) :
    Stands name text := by
  obtain ⟨before, rest, htext, hbefore⟩ := h
  refine ⟨before, '.' :: rest, htext, hbefore, ?_⟩
  show (!isIdentifierChar '.') = true
  decide +kernel

/-! ### Moving texts -/

theorem Stands.append {name text : List Char} (h : Stands name text) {front back : List Char}
    (hfront : joinedAfter false front = false) (hback : startsOutside back = true) :
    Stands name (front ++ (text ++ back)) := by
  obtain ⟨before, after, rfl, hbefore, hafter⟩ := h
  refine ⟨front ++ before, after ++ back, by simp, ?_, startsOutside_append hafter hback⟩
  rw [joinedAfter_append, hfront]
  exact hbefore

theorem Stands.append_left {name text : List Char} (h : Stands name text) {front : List Char}
    (hfront : joinedAfter false front = false) : Stands name (front ++ text) := by
  have := h.append hfront (show startsOutside [] = true from rfl)
  rwa [List.append_nil] at this

/-- A name stands in a text if it stands in one of its lines. -/
theorem Stands.unlines {name line : List Char} {lines : List (List Char)} (hline : line ∈ lines)
    (h : Stands name line) : Stands name (unlines lines) := by
  induction lines with
  | nil => exact absurd hline List.not_mem_nil
  | cons first rest ih =>
      cases rest with
      | nil =>
          rw [List.mem_singleton.1 hline] at h
          exact h
      | cons next rest =>
          show Stands name (first ++ '\n' :: Text.unlines (next :: rest))
          rcases List.mem_cons.1 hline with rfl | hrest
          · exact h.append (show joinedAfter false [] = false from rfl) (by rfl)
          -- Everything in front of the later lines ends with a line end.
          · have hmargin : joinedAfter false (first ++ ['\n']) = false := by
              rw [joinedAfter_concat]
              decide +kernel
            have := (ih hrest).append_left hmargin
            rwa [List.append_assoc] at this

/-- A name without line ends stands in one of the lines of a text. -/
theorem Stands.exists_line {name text : List Char} (h : Stands name text) (hne : name ≠ [])
    (hname : '\n' ∉ name) : ∃ line ∈ lines text, Stands name line := by
  obtain ⟨before, after, htext, hbefore, hafter⟩ := h
  rw [← unlines_lines text] at htext
  obtain ⟨line, hline, before', after', heq, hsuffix, hprefix⟩ := exists_piece hne hname htext
  exact ⟨line, hline, before', after', heq, joinedAfter_of_suffix hsuffix hbefore,
    startsOutside_of_prefix hprefix hafter⟩

/-- A text in a list of texts, with line ends between them. -/
theorem mentions_intercalate {name text : String} {texts : List String} (htext : text ∈ texts)
    (h : mentions text name = true) : mentions (String.intercalate "\n" texts) name = true := by
  rw [mentions_iff] at h ⊢
  have := h.unlines (List.mem_map_of_mem (f := String.toList) htext)
  rwa [Text.unlines, joinWith_eq, ← show "\n".toList = ['\n'] from rfl,
    ← String.toList_intercalate] at this

/-! ### Indenting -/

/-- The codes of blank characters. -/
def blankCodes : List Nat :=
  List.range' 9 5 ++ List.range' 0x1C 5 ++ [0x85, 0xA0, 0x1680] ++ List.range' 0x2000 11 ++
    [0x2028, 0x2029, 0x202F, 0x205F, 0x3000]

theorem isIdentifierChar_of_isBlank {c : Char} (h : isBlank c = true) :
    isIdentifierChar c = false := by
  have hcode : c.toNat ∈ blankCodes := by
    simp only [isBlank, Bool.or_eq_true, Bool.and_eq_true, decide_eq_true_eq, beq_iff_eq] at h
    simp only [blankCodes, List.mem_append, List.mem_range'_1, List.mem_cons, List.not_mem_nil,
      or_false]
    omega
  have hall : ∀ code ∈ blankCodes, isIdentifierChar (Char.ofNat code) = false := by decide +kernel
  rw [← Char.ofNat_toNat c]
  exact hall _ hcode

theorem IsName.not_isBlank {name : String} (hname : IsName name) :
    ∀ c ∈ name.toList, isBlank c = false := by
  intro c hc
  cases hblank : isBlank c with
  | false => rfl
  | true =>
      have := hname.isIdentifierChar c hc
      rw [isIdentifierChar_of_isBlank hblank] at this
      cases this

theorem joinedAfter_of_isBlank {margin : List Char} (h : ∀ c ∈ margin, isBlank c = true) :
    joinedAfter false margin = false := by
  rcases List.eq_nil_or_concat margin with rfl | ⟨front, c, rfl⟩
  · rfl
  · rw [List.concat_eq_append] at h ⊢
    rw [joinedAfter_concat]
    exact isIdentifierChar_of_isBlank (h c (by simp))

/-- Indented text mentions the same names. -/
theorem mentions_indent {text name : String} (level : Nat) (hname : IsName name)
    (h : mentions text name = true) : mentions (indent text level) name = true := by
  rw [mentions_iff] at h ⊢
  have hend : '\n' ∉ name.toList := by
    intro hmem
    have hblank : isBlank '\n' = false := hname.not_isBlank _ hmem
    revert hblank
    decide
  obtain ⟨line, hline, hstands⟩ := h.exists_line hname.ne_nil hend
  rw [indent, String.toList_ofList]
  refine Stands.unlines (List.mem_map_of_mem hline) ?_
  -- The line is not blank, since the name stands in it.
  have hblank : isBlankLine line = false := by
    obtain ⟨before, after, rfl, -, -⟩ := hstands
    obtain ⟨c, cs, hcons⟩ := List.exists_cons_of_ne_nil hname.ne_nil
    rw [isBlankLine, List.all_eq_false]
    refine ⟨c, by simp [hcons], ?_⟩
    rw [hname.not_isBlank c (hcons ▸ List.mem_cons_self)]
    exact Bool.false_ne_true
  rw [hblank, if_neg Bool.false_ne_true]
  refine hstands.append_left (joinedAfter_of_isBlank ?_)
  intro c hc
  obtain ⟨step, hstep, hc⟩ := List.mem_flatten.1 hc
  rw [List.eq_of_mem_replicate hstep] at hc
  have hstep : indentStep.toList.all isBlank = true := by decide
  exact List.all_eq_true.1 hstep c hc

end RouteBinder.Text
