import RouteBinder.Proofs.Text.Margins

/-!
# RouteBinder.Proofs.Text.Brackets

**Properly nested brackets.** A text is `Nested` when each of its brackets has its partner, and what stands
between the two is nested as well. Reading from left to right with the closing brackets that are still
awaited on a stack decides it (`nested_iff`).

A nested text in one pair of brackets still may be two of them in a row, as in `<a><b>`; then the first and
the last bracket are no partners. They are exactly when the text is `Whole`, and exactly then what stands
between the two is nested (`nested_inner_iff`).
-/

namespace RouteBinder.Text

/-- The partner of an opening bracket. -/
def closing? : Char → Option Char
  | '<' => some '>'
  | '(' => some ')'
  | '[' => some ']'
  | '\x7b' => some '\x7d'
  | _ => none

def isClosing (c : Char) : Bool := c == '>' || c == ')' || c == ']' || c == '\x7d'

/-- Neither an opening nor a closing bracket. -/
def isNeutral (c : Char) : Bool := (closing? c).isNone && !isClosing c

/-- The brackets of a text are properly nested. -/
inductive Nested : List Char → Prop
  | nil : Nested []
  | neutral {c : Char} {rest : List Char} : isNeutral c = true → Nested rest → Nested (c :: rest)
  | pair {c partner : Char} {inner rest : List Char} : closing? c = some partner → Nested inner →
      Nested rest → Nested (c :: (inner ++ partner :: rest))

/-- The closing brackets that are awaited after a character, if they were `stack` before it; nothing when
the character is a closing bracket that is not the next one awaited. -/
def after? (stack : List Char) (c : Char) : Option (List Char) :=
  match closing? c, stack with
  | some partner, _ => some (partner :: stack)
  | none, [] => if isClosing c then none else some []
  | none, next :: below =>
    if isClosing c then (if c = next then some below else none) else some (next :: below)

/-- The closing brackets that are awaited after a text. -/
def awaited? (stack text : List Char) : Option (List Char) := text.foldlM after? stack

variable {c partner : Char} {text other inner rest stack below left : List Char}

/-! ### One character -/

theorem isClosing_of_closing? (h : closing? c = some partner) : isClosing partner = true := by
  unfold closing? at h
  split at h <;> cases h <;> rfl

theorem closing?_eq_none_of_isClosing (h : isClosing c = true) : closing? c = none := by
  simp only [isClosing, Bool.or_eq_true, beq_iff_eq] at h
  rcases h with ((rfl | rfl) | rfl) | rfl <;> rfl

/-- Every character opens, does nothing or closes. -/
theorem bracket_cases (c : Char) :
    (∃ partner, closing? c = some partner) ∨ isNeutral c = true ∨ isClosing c = true := by
  unfold isNeutral
  cases closing? c <;> cases isClosing c <;> simp

theorem after?_opening (h : closing? c = some partner) (stack : List Char) :
    after? stack c = some (partner :: stack) := by
  delta after?
  rw [h]

theorem after?_neutral (h : isNeutral c = true) (stack : List Char) : after? stack c = some stack := by
  simp only [isNeutral, Bool.and_eq_true, Option.isNone_iff_eq_none, Bool.not_eq_true'] at h
  delta after?
  cases stack <;> simp only [h, Bool.false_eq_true, if_false]

theorem after?_closing (h : isClosing c = true) {next : Char} :
    after? (next :: stack) c = if c = next then some stack else none := by
  delta after?
  simp only [closing?_eq_none_of_isClosing h, h, if_true]

theorem after?_nil_closing (h : isClosing c = true) : after? [] c = none := by
  delta after?
  simp only [closing?_eq_none_of_isClosing h, h, if_true]

/-- What is awaited below does not matter. -/
theorem after?_append (h : after? stack c = some left) (below : List Char) :
    after? (stack ++ below) c = some (left ++ below) := by
  obtain ⟨partner, hopening⟩ | hneutral | hclosing := bracket_cases c
  · rw [after?_opening hopening] at h ⊢
    rw [← Option.some.inj h]
    rfl
  · rw [after?_neutral hneutral] at h ⊢
    rw [Option.some.inj h]
  · cases stack with
    | nil =>
        rw [after?_nil_closing hclosing] at h
        cases h
    | cons next stack =>
        rw [after?_closing hclosing] at h
        rw [List.cons_append, after?_closing hclosing]
        split at h
        · rename_i hnext
          rw [if_pos hnext, Option.some.inj h]
        · cases h

/-! ### Texts -/

theorem awaited?_cons (stack : List Char) (c : Char) (rest : List Char) :
    awaited? stack (c :: rest) = (after? stack c).bind fun left => awaited? left rest := rfl

theorem awaited?_append (stack text other : List Char) :
    awaited? stack (text ++ other) = (awaited? stack text).bind fun left => awaited? left other :=
  List.foldlM_append

theorem awaited?_append_below (h : awaited? stack text = some left) (below : List Char) :
    awaited? (stack ++ below) text = some (left ++ below) := by
  induction text generalizing stack with
  | nil =>
      cases h
      rfl
  | cons c rest ih =>
      rw [awaited?_cons] at h ⊢
      obtain ⟨next, hnext, h⟩ := Option.bind_eq_some_iff.1 h
      rw [after?_append hnext, Option.bind_some, ih h]

/-- After a nested text the same brackets are awaited as before it. -/
theorem Nested.awaited?_eq (h : Nested text) (stack : List Char) : awaited? stack text = some stack := by
  induction h generalizing stack with
  | nil => rfl
  | neutral hneutral _ ih => rw [awaited?_cons, after?_neutral hneutral, Option.bind_some, ih]
  | @pair c partner inner rest hopening _ _ ihinner ihrest =>
      rw [awaited?_cons, after?_opening hopening, Option.bind_some, awaited?_append, ihinner,
        Option.bind_some, awaited?_cons, after?_closing (isClosing_of_closing? hopening), if_pos rfl,
        Option.bind_some, ihrest]

/-- The text closes all brackets of the stack, one after the other, and what stands in between is nested. -/
def Closes : List Char → List Char → Prop
  | [], text => Nested text
  | next :: stack, text => ∃ inner rest, text = inner ++ next :: rest ∧ Nested inner ∧ Closes stack rest

/-- What keeps texts nested may stand in front. -/
theorem Closes.prepend {front : List Char} (hfront : ∀ text, Nested text → Nested (front ++ text))
    (h : Closes stack text) : Closes stack (front ++ text) := by
  cases stack with
  | nil => exact hfront text h
  | cons next stack =>
      obtain ⟨inner, rest, rfl, hinner, hrest⟩ := h
      exact ⟨front ++ inner, rest, (List.append_assoc ..).symm, hfront inner hinner, hrest⟩

theorem closes_of_awaited? (h : awaited? stack text = some []) : Closes stack text := by
  induction text generalizing stack with
  | nil =>
      cases h
      exact .nil
  | cons c rest ih =>
      rw [awaited?_cons] at h
      obtain ⟨partner, hopening⟩ | hneutral | hclosing := bracket_cases c
      · rw [after?_opening hopening] at h
        obtain ⟨inner, after, rfl, hinner, hafter⟩ := ih h
        have hfront (text : List Char) (h : Nested text) :
            Nested (c :: (inner ++ [partner]) ++ text) := by
          rw [List.cons_append, List.append_assoc]
          exact .pair hopening hinner h
        have := hafter.prepend hfront
        rwa [List.cons_append, List.append_assoc] at this
      · rw [after?_neutral hneutral] at h
        have hfront (text : List Char) (h : Nested text) : Nested ([c] ++ text) := .neutral hneutral h
        exact (ih h).prepend hfront
      · cases stack with
        | nil =>
            rw [after?_nil_closing hclosing] at h
            cases h
        | cons next stack =>
            rw [after?_closing hclosing] at h
            split at h
            · rename_i hnext
              subst hnext
              exact ⟨[], rest, rfl, .nil, ih h⟩
            · cases h

/-- A text is nested when nothing is awaited in the end. -/
theorem nested_iff : Nested text ↔ awaited? [] text = some [] :=
  ⟨fun h => h.awaited?_eq [], closes_of_awaited?⟩

instance (text : List Char) : Decidable (Nested text) := decidable_of_iff _ nested_iff.symm

/-! ### Texts next to each other -/

theorem nested_of_isNeutral (h : ∀ c ∈ text, isNeutral c = true) : Nested text := by
  induction text with
  | nil => exact .nil
  | cons c rest ih =>
      rw [List.forall_mem_cons] at h
      exact .neutral h.1 (ih h.2)

theorem Nested.append_iff (h : Nested text) : Nested (text ++ other) ↔ Nested other := by
  rw [nested_iff, nested_iff, awaited?_append, h.awaited?_eq, Option.bind_some]

theorem Nested.append_iff_left (h : Nested other) : Nested (text ++ other) ↔ Nested text := by
  rw [nested_iff, nested_iff, awaited?_append]
  cases htext : awaited? [] text with
  | none => simp
  | some left => rw [Option.bind_some, h.awaited?_eq]

theorem isNeutral_of_isBlank (h : isBlank c = true) : isNeutral c = true := by
  obtain ⟨partner, hopening⟩ | hneutral | hclosing := bracket_cases c
  · unfold closing? at hopening
    split at hopening <;> cases hopening <;> cases h
  · exact hneutral
  · simp only [isClosing, Bool.or_eq_true, beq_iff_eq] at hclosing
    rcases hclosing with ((rfl | rfl) | rfl) | rfl <;> cases h

/-- Blanks at the ends are no brackets. -/
theorem nested_trimWhile_iff : Nested (trimWhile isBlank text) ↔ Nested text := by
  obtain ⟨front, back, htext, hfront, hback⟩ := exists_trimWhile isBlank text
  have hfront := nested_of_isNeutral fun c hc => isNeutral_of_isBlank (hfront c hc)
  have hback := nested_of_isNeutral fun c hc => isNeutral_of_isBlank (hback c hc)
  conv_rhs => rw [htext]
  rw [hfront.append_iff, hback.append_iff_left]

/-! ### Partners -/

/-- The text is not two nested texts in a row. So if it is nested and begins with a bracket, the partner of
this bracket is its end. -/
def Whole (text : List Char) : Prop :=
  ∀ piece rest, text = piece ++ rest → Nested piece → piece = [] ∨ rest = []

/-- What stands between the first and the last bracket is nested when the two are partners. -/
theorem nested_inner_iff (hopening : closing? c = some partner)
    (h : Nested (c :: (inner ++ [partner]))) : Nested inner ↔ Whole (c :: (inner ++ [partner])) := by
  constructor
  · intro hinner piece rest htext hpiece
    -- Within `inner` the first bracket stays open, so no piece that ends there is nested.
    by_contra hboth
    rw [not_or] at hboth
    obtain ⟨first, piece, rfl⟩ := List.exists_cons_of_ne_nil hboth.1
    obtain ⟨before, last, rfl⟩ := (List.eq_nil_or_concat' rest).resolve_left hboth.2
    rw [List.cons_append] at htext
    obtain ⟨rfl, hsplit⟩ := List.cons.inj htext
    rw [← List.append_assoc] at hsplit
    obtain ⟨rfl, -⟩ := List.append_inj' hsplit rfl
    rw [nested_iff, awaited?_cons, after?_opening hopening, Option.bind_some] at hpiece
    rw [nested_iff, awaited?_append] at hinner
    obtain ⟨left, hleft, -⟩ := Option.bind_eq_some_iff.1 hinner
    have hopen := awaited?_append_below hleft [partner]
    rw [List.nil_append, hpiece] at hopen
    simp at hopen
  · intro hwhole
    generalize htext : c :: (inner ++ [partner]) = text at h hwhole
    cases h with
    | nil => cases htext
    | neutral hneutral _ =>
        obtain ⟨rfl, -⟩ := List.cons.inj htext
        simp [isNeutral, hopening] at hneutral
    | @pair first other front rest hfirst hfront hrest =>
        obtain ⟨rfl, hsplit⟩ := List.cons.inj htext
        obtain rfl := Option.some.inj (hopening.symm.trans hfirst)
        have hpieces : c :: (front ++ partner :: rest) = (c :: (front ++ [partner])) ++ rest := by simp
        rcases hwhole _ rest hpieces (.pair hopening hfront .nil) with hnil | rfl
        · cases hnil
        · obtain ⟨rfl, -⟩ := List.append_inj' hsplit rfl
          exact hfront

end RouteBinder.Text
