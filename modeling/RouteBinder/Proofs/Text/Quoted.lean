import RouteBinder.Handler
import RouteBinder.Text.Quoted

/-!
# RouteBinder.Proofs.Text.Quoted

**Keys and literals in emitted code.** A literal is read back as the text it was made for
(`Quoted.decode_encode`), and no identifier looks like one. So two keys of accessors are written alike
exactly when their upper cases agree (`Quoted.propertyKey_inj`).
-/

namespace RouteBinder.Text.Quoted

/-! ### Literals -/

/-- What the characters between the quotes of a literal stand for. -/
def decode : List Char → List Char
  | '\\' :: c :: rest => (if c == 'n' then '\n' else c) :: decode rest
  | c :: rest => c :: decode rest
  | [] => []

/-- The spellings that there are: three escapes, and the character itself. -/
theorem encodeChar_cases (c : Char) :
    c = '\\' ∧ encodeChar c = ['\\', '\\'] ∨ c = '\x27' ∧ encodeChar c = ['\\', '\x27'] ∨
      c = '\n' ∧ encodeChar c = ['\\', 'n'] ∨
      (c ≠ '\\' ∧ c ≠ '\x27' ∧ c ≠ '\n') ∧ encodeChar c = [c] := by
  by_cases hbackslash : c = '\\'
  · subst hbackslash
    exact .inl ⟨rfl, rfl⟩
  by_cases hquote : c = '\x27'
  · subst hquote
    exact .inr (.inl ⟨rfl, rfl⟩)
  by_cases hfeed : c = '\n'
  · subst hfeed
    exact .inr (.inr (.inl ⟨rfl, rfl⟩))
  · have hself : encodeChar c = [c] := by simp [encodeChar, hbackslash, hquote, hfeed]
    exact .inr (.inr (.inr ⟨⟨hbackslash, hquote, hfeed⟩, hself⟩))

theorem decode_encodeChar_append (c : Char) (rest : List Char) :
    decode (encodeChar c ++ rest) = c :: decode rest := by
  rcases encodeChar_cases c with ⟨rfl, -⟩ | ⟨rfl, -⟩ | ⟨rfl, -⟩ | ⟨hplain, hself⟩
  · rfl
  · rfl
  · rfl
  · rw [hself, List.singleton_append]
    cases rest with
    | nil => simp [decode]
    | cons next rest => simp [decode, hplain]

theorem decode_encode (text rest : List Char) :
    decode (text.flatMap encodeChar ++ rest) = text ++ decode rest := by
  induction text with
  | nil => rfl
  | cons c text ih =>
      rw [List.flatMap_cons, List.append_assoc, decode_encodeChar_append, ih, List.cons_append]

theorem literal_inj {a b : String} : literal a = literal b ↔ a = b := by
  refine ⟨fun h => ?_, congrArg literal⟩
  have hencoded : encode a.toList = encode b.toList := by
    simpa [literal] using congrArg String.toList h
  have hinner := (List.cons.inj hencoded).2
  have hdecoded := congrArg decode hinner
  rw [decode_encode, decode_encode] at hdecoded
  exact String.toList_inj.1 (List.append_cancel_right hdecoded)

theorem mem_encodeChar_iff {c d : Char} (hd : d ≠ '\\' ∧ d ≠ '\x27' ∧ d ≠ 'n') :
    d ∈ encodeChar c ↔ d ≠ '\n' ∧ d = c := by
  rcases encodeChar_cases c with ⟨rfl, hc⟩ | ⟨rfl, hc⟩ | ⟨rfl, hc⟩ | ⟨hplain, hc⟩
  · simp [hc, hd]
  · simp [hc, hd]
  · simp [hc, hd]
  · rw [hc, List.mem_singleton]
    exact ⟨fun heq => ⟨heq ▸ hplain.2.2, heq⟩, And.right⟩

/-- Apart from what escapes are made of, a literal has the characters of its text, but no line feed. -/
theorem mem_literal_iff {text : String} {c : Char} (hc : c ≠ '\\' ∧ c ≠ '\x27' ∧ c ≠ 'n') :
    c ∈ (literal text).toList ↔ c ∈ text.toList ∧ c ≠ '\n' := by
  simp [literal, encode, mem_encodeChar_iff hc, hc.2.1]

/-! ### Keys -/

theorem not_isIdentifier_literal (text : String) : isIdentifier (literal text) = false := by
  have hend : (encode text.toList).getLast? = some '\x27' := by
    rw [encode, ← List.cons_append, List.getLast?_concat]
  rw [isIdentifier, literal, String.toList_ofList, dropFinalLineFeed, hend]
  rfl

/-- The key for a name is written like an identifier only when it is one. -/
theorem propertyKey_eq_iff {name identifier : String} (h : isIdentifier identifier = true) :
    propertyKey name = identifier ↔ upper name = identifier := by
  unfold propertyKey
  dsimp only
  split
  · rfl
  · rename_i hquoted
    constructor
    · intro heq
      rw [← heq, not_isIdentifier_literal] at h
      cases h
    · intro heq
      exact absurd (heq ▸ h) hquoted

/-- Keys are written alike when the upper cases of the names agree. -/
theorem propertyKey_inj {a b : String} : propertyKey a = propertyKey b ↔ upper a = upper b := by
  by_cases hb : isIdentifier (upper b) = true
  · have hself : propertyKey b = upper b := (propertyKey_eq_iff hb).2 rfl
    rw [hself, propertyKey_eq_iff hb]
  by_cases ha : isIdentifier (upper a) = true
  · have hself : propertyKey a = upper a := (propertyKey_eq_iff ha).2 rfl
    rw [hself, eq_comm, propertyKey_eq_iff ha, eq_comm]
  · rw [propertyKey, propertyKey, if_neg ha, if_neg hb, literal_inj]

/-- The verbs are written without quotes. -/
theorem isIdentifier_of_mem_verbs {verb : String} (h : verb ∈ verbs) : isIdentifier verb = true := by
  have hall : ∀ verb ∈ verbs, isIdentifier verb = true := by decide +kernel
  exact hall verb h

end RouteBinder.Text.Quoted
