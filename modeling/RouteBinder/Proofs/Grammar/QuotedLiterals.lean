import Mathlib.Algebra.Ring.Parity
import Mathlib.Data.List.DropRight
import RouteBinder.Proofs.Grammar.LiteralValues

/-!
# RouteBinder.Proofs.Grammar.QuotedLiterals

**Literals that no text can leave.** `Quoted.literal` spells a text character by character. This is what
three replacements do one after the other, backslashes first (`flatMap_encodeChar_eq`): none of them finds a
mark in what an earlier one has written.

A quote is escaped when an odd number of backslashes stands in front of it (`EndsEscaping`). In the spelling of a
character each quote is, and no backslash is left over for what follows; both is kept when spellings are put
together (`Confined.append`), whatever runs of backslashes and quotes there are. So the string that is read
from a module ends where the literal does, and it denotes the text (`IsLiteralOf`). This is what
`Quoted.literal` gives for a text exactly when there are no line ends in it but line feeds
(`isLiteralOf_literal_iff`).
-/

namespace RouteBinder.Text.Quoted

open Grammar (codeUnits literalUnits? stringLength stringRest)

variable {c : Char} {content other text before after : List Char}

/-! ### Replacements -/

/-- The text with `spelling` in every place of `mark`. -/
def replaced (mark : Char) (spelling text : List Char) : List Char :=
  text.flatMap fun c => if c == mark then spelling else [c]

/-- The escapes of a literal, one after the other. Backslashes come first, so they are those of the text. -/
def escaped (text : List Char) : List Char :=
  replaced '\n' ['\\', 'n'] (replaced '\x27' ['\\', '\x27'] (replaced '\\' ['\\', '\\'] text))

theorem flatMap_encodeChar_eq (text : List Char) : text.flatMap encodeChar = escaped text := by
  rw [escaped, replaced, replaced, replaced, List.flatMap_assoc, List.flatMap_assoc]
  refine List.flatMap_congr fun c _ => ?_
  rcases encodeChar_cases c with ⟨rfl, -⟩ | ⟨rfl, -⟩ | ⟨rfl, -⟩ | ⟨hplain, hself⟩
  · rfl
  · rfl
  · rfl
  · simp [hself, hplain]

/-- Of the three backslashes in front of the quote, the first two stand for the one in the text. -/
example : literal "\\'\n" = "'\\\\\\'\\n'" := by decide

/-! ### Escaped characters -/

/-- The backslashes at the end of the text are odd in number, so the last one of them escapes what follows. -/
def EndsEscaping (text : List Char) : Prop := Odd (text.rtakeWhile (· == '\\')).length

instance (text : List Char) : Decidable (EndsEscaping text) :=
  inferInstanceAs (Decidable (Odd (text.rtakeWhile (· == '\\')).length))

theorem not_endsEscaping_nil : ¬ EndsEscaping [] := by decide

theorem endsEscaping_concat (text : List Char) (c : Char) :
    EndsEscaping (text ++ [c]) ↔ c = '\\' ∧ ¬ EndsEscaping text := by
  rw [EndsEscaping, List.rtakeWhile_concat]
  by_cases hc : c = '\\'
  · simp [EndsEscaping, hc, Nat.odd_add_one]
  · simp [hc]

/-- Behind a text in which each backslash has its character, escapes begin anew. -/
theorem endsEscaping_append (h : ¬ EndsEscaping content) (text : List Char) :
    EndsEscaping (content ++ text) ↔ EndsEscaping text := by
  induction text using List.reverseRecOn with
  | nil =>
      rw [List.append_nil]
      exact iff_of_false h not_endsEscaping_nil
  | append_singleton text c ih =>
      rw [← List.append_assoc, endsEscaping_concat, endsEscaping_concat, ih]

/-- No quote in the content closes a literal, and neither does the content take the quote that does. -/
structure Confined (content : List Char) : Prop where
  endsEscaping : ∀ before after, content = before ++ '\x27' :: after → EndsEscaping before
  not_endsEscaping : ¬ EndsEscaping content

theorem confined_of_not_mem (hquote : '\x27' ∉ content) (h : ¬ EndsEscaping content) :
    Confined content where
  endsEscaping before after heq := by
    rw [heq] at hquote
    exact absurd (List.mem_append_right before List.mem_cons_self) hquote
  not_endsEscaping := h

theorem confined_encodeChar (c : Char) : Confined (encodeChar c) := by
  rcases encodeChar_cases c with ⟨rfl, hc⟩ | ⟨rfl, hc⟩ | ⟨rfl, hc⟩ | ⟨hplain, hc⟩
  · rw [hc]
    exact confined_of_not_mem (by decide) (by decide)
  · rw [hc]
    refine ⟨fun before after heq => ?_, by decide⟩
    obtain ⟨rfl, rfl⟩ : before = ['\\'] ∧ after = [] := by
      simpa [List.cons_eq_append_iff] using heq
    decide
  · rw [hc]
    exact confined_of_not_mem (by decide) (by decide)
  · rw [hc]
    refine confined_of_not_mem (by simpa using Ne.symm hplain.2.1) fun hend => ?_
    exact hplain.1 ((endsEscaping_concat [] c).1 hend).1

theorem Confined.append (h : Confined content) (hother : Confined other) : Confined (content ++ other) where
  endsEscaping before after heq := by
    rcases List.append_eq_append_iff.1 heq with ⟨front, rfl, hfront⟩ | ⟨back, hcontent, hback⟩
    · rw [endsEscaping_append h.not_endsEscaping]
      exact hother.endsEscaping front after hfront
    · cases back with
      | nil => exact absurd (hother.endsEscaping [] after hback.symm) not_endsEscaping_nil
      | cons c back =>
          obtain ⟨rfl, -⟩ := List.cons.inj hback
          exact h.endsEscaping before back hcontent
  not_endsEscaping := by
    rw [endsEscaping_append h.not_endsEscaping]
    exact hother.not_endsEscaping

theorem confined_flatMap_encodeChar (text : List Char) : Confined (text.flatMap encodeChar) := by
  induction text with
  | nil => exact confined_of_not_mem List.not_mem_nil not_endsEscaping_nil
  | cons c text ih => exact (confined_encodeChar c).append ih

/-- The first quote that is not escaped is the one behind the content. -/
theorem Confined.not_endsEscaping_iff (h : Confined content)
    (heq : content ++ ['\x27'] = before ++ '\x27' :: after) : ¬ EndsEscaping before ↔ after = [] := by
  rcases List.eq_nil_or_concat' after with rfl | ⟨inner, last, rfl⟩
  · obtain ⟨rfl, -⟩ := List.append_inj' heq rfl
    exact iff_of_true h.not_endsEscaping rfl
  · rw [← List.cons_append, ← List.append_assoc] at heq
    have hend := h.endsEscaping before inner (List.append_inj' heq rfl).1
    exact iff_of_false (not_not_intro hend) (by simp)

/-! ### Strings in a module -/

theorem stringRest_encodeChar_append (hc : c ≠ '\r') (rest : List Char) :
    stringRest '\x27' 0 (encodeChar c ++ rest) =
      (stringRest '\x27' 0 rest).map (· + (encodeChar c).length) := by
  rcases encodeChar_cases c with ⟨rfl, hspelling⟩ | ⟨rfl, hspelling⟩ | ⟨rfl, hspelling⟩ | ⟨hplain, hspelling⟩
  · rw [hspelling]
    exact Option.map_map _ _ _
  · rw [hspelling]
    exact Option.map_map _ _ _
  · rw [hspelling]
    exact Option.map_map _ _ _
  · simp [hspelling, stringRest, hplain, hc]

theorem stringRest_flatMap_encodeChar (hreturn : '\r' ∉ text) (rest : List Char) :
    stringRest '\x27' 0 (text.flatMap encodeChar ++ '\x27' :: rest) =
      some ((text.flatMap encodeChar).length + 1) := by
  induction text with
  | nil => rfl
  | cons c text ih =>
      rw [List.mem_cons, not_or] at hreturn
      rw [List.flatMap_cons, List.append_assoc, stringRest_encodeChar_append (Ne.symm hreturn.1),
        ih hreturn.2, Option.map_some, List.length_append]
      congr 1
      omega

theorem stringLength_literal {text : String} (hreturn : '\r' ∉ text.toList) (rest : List Char) :
    stringLength ((literal text).toList ++ rest) = some (literal text).toList.length := by
  have hliteral : (literal text).toList ++ rest =
      '\x27' :: (text.toList.flatMap encodeChar ++ '\x27' :: rest) := by
    simp [literal, encode]
  rw [hliteral, stringLength, stringRest_flatMap_encodeChar hreturn]
  simp [literal, encode]

/-! ### Literals of a text -/

/-- Characters that end a line. -/
def lineEnds : List Char := ['\n', '\r', '\u2028', '\u2029']

/-- A string between single quotes, on one line, that ends with its last character and denotes the text. -/
structure IsLiteralOf (text literal : String) : Prop where
  quotes : ∃ content, literal.toList = '\x27' :: (content ++ ['\x27'])
  line : ∀ c ∈ lineEnds, c ∉ literal.toList
  /-- Behind the opening quote, only the last character is a quote that is not escaped. -/
  closing : ∀ before after, literal.toList = '\x27' :: (before ++ '\x27' :: after) →
    (¬ EndsEscaping before ↔ after = [])
  /-- Nothing that stands behind the literal in a module is read as a part of it. -/
  length : ∀ rest, stringLength (literal.toList ++ rest) = some literal.toList.length
  value : ∀ other : String, literalUnits? literal = some (codeUnits other.toList) ↔ other = text

theorem isLiteralOf_literal_iff {text : String} : IsLiteralOf text (literal text) ↔
    '\r' ∉ text.toList ∧ '\u2028' ∉ text.toList ∧ '\u2029' ∉ text.toList := by
  have hline : (∀ c ∈ lineEnds, c ∉ (literal text).toList) ↔
      '\r' ∉ text.toList ∧ '\u2028' ∉ text.toList ∧ '\u2029' ∉ text.toList := by
    simp [lineEnds, mem_literal_iff]
  rw [← hline]
  refine ⟨IsLiteralOf.line, fun h => ?_⟩
  have hreturn : '\r' ∉ text.toList := (hline.1 h).1
  exact
    { quotes := ⟨_, String.toList_ofList⟩
      line := h
      closing := fun before after heq => by
        rw [literal, String.toList_ofList, encode, List.cons.injEq] at heq
        exact (confined_flatMap_encodeChar text.toList).not_endsEscaping_iff heq.2
      length := stringLength_literal hreturn
      value := fun other => by
        rw [Grammar.literalUnits?_literal, if_neg hreturn, Option.some.injEq, Grammar.codeUnits_inj,
          String.toList_inj, eq_comm] }

/-- Between its quotes a literal is the text with three replacements made in it. It is a literal of its text
exactly when there is no line end in it but line feeds, and other texts have other literals. -/
theorem literal_laws :
    (∀ text : String, (literal text).toList = '\x27' :: (escaped text.toList ++ ['\x27'])) ∧
    (∀ text, IsLiteralOf text (literal text) ↔
      '\r' ∉ text.toList ∧ '\u2028' ∉ text.toList ∧ '\u2029' ∉ text.toList) ∧
    Function.Injective literal := by
  refine ⟨fun text => ?_, fun _ => isLiteralOf_literal_iff, fun _ _ => literal_inj.1⟩
  rw [literal, String.toList_ofList, encode, flatMap_encodeChar_eq]

end RouteBinder.Text.Quoted
