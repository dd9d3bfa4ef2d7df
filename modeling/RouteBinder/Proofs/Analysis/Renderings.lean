import RouteBinder.Proofs.Analysis.ArrayTexts
import RouteBinder.Proofs.Analysis.RecordTexts
import RouteBinder.Proofs.Analysis.UnionTexts
import RouteBinder.Proofs.Analysis.WordTexts

/-!
# RouteBinder.Proofs.Analysis.Renderings

**What is read of the text of a type.** An array puts its element in parentheses when the text of the element
would not bind to the brackets as a whole; a union and a field write their parts as they are. `Legible` says
what it takes of the texts in a type that all of them bind as they should: each of them is looked at where it
stands, and parts that are taken apart bring no condition of their own. The text of such a type is read as
the type again (`Legible.readAt`).
-/

namespace RouteBinder.Analysis

open Source Grammar Parse TypeExpr Text

variable {type element : TypeExpr} {members : List TypeExpr} {fields : List Field} {name : String}
  {site : Site} {c : Char}

/-! ### Names of fields -/

/-- The codes of characters that stand in no name. -/
def separatorCodes : List Nat :=
  List.range 0x20 ++ [0x20, 0x85, 0xA0, 0x1680] ++ List.range' 0x2000 12 ++
    [0x2028, 0x2029, 0x202F, 0x205F, 0x2060, 0x3000, 0xFEFF] ++
    ":;\x60\x22\x27@#.,|^&<=>+-*/\\%?!~()[]\x7b\x7d".toList.map Char.toNat

/-- Names that are written without quotes are names for the grammar, too. -/
theorem isNameChar_of_isIdentifierChar (h : isIdentifierChar c = true) : isNameChar c = true := by
  by_contra hname
  have hcode : c.toNat ∈ separatorCodes := by
    simp only [isNameChar, Bool.not_eq_true', Bool.not_eq_false, Bool.or_eq_true,
      decide_eq_true_eq] at hname
    simp only [separatorCodes, List.mem_append, List.mem_range, List.mem_range'_1, List.mem_cons,
      List.not_mem_nil, or_false]
    rcases hname with (hcontrol | hblank) | hpunctuation
    · omega
    · simp only [Grammar.isBlank, Bool.or_eq_true, Bool.and_eq_true, decide_eq_true_eq,
        beq_iff_eq] at hblank
      omega
    · exact Or.inr (List.mem_map_of_mem (List.contains_iff_mem.1 hpunctuation))
  have hall : ∀ code ∈ separatorCodes, isIdentifierChar (Char.ofNat code) = false := by decide +kernel
  have := hall _ hcode
  rw [Char.ofNat_toNat, h] at this
  cases this

theorem isNameStart_of_isIdentifierStart (h : isIdentifierStart c = true) : isNameStart c = true := by
  have hcode : c.toNat < 128 := by
    change (decide ('A'.val ≤ c.val ∧ c.val ≤ 'Z'.val) ||
      (decide ('a'.val ≤ c.val) && decide (c.val ≤ 'z'.val)) || c == '_' || c == '$') = true at h
    simp only [Bool.or_eq_true, Bool.and_eq_true, decide_eq_true_eq, beq_iff_eq,
      UInt32.le_iff_toNat_le] at h
    rcases h with (h | rfl) | rfl
    · have hval : c.val.toNat = c.toNat := rfl
      have hlast : 'Z'.val.toNat = 90 ∧ 'z'.val.toNat = 122 := ⟨rfl, rfl⟩
      omega
    · decide
    · decide
  have hall : ∀ code < 128, isIdentifierStart (Char.ofNat code) = true →
      isNameStart (Char.ofNat code) = true := by
    decide +kernel
  have := hall _ hcode
  rw [Char.ofNat_toNat] at this
  exact this h

/-- The name stands for itself between single quotes. -/
def Quotable (name : String) : Prop := ∀ c ∈ name.toList, c ∉ ['\x27', '\\', '\n', '\r']

instance (name : String) : Decidable (Quotable name) :=
  inferInstanceAs (Decidable (∀ c ∈ name.toList, c ∉ ['\x27', '\\', '\n', '\r']))

theorem toList_quoted (name : String) : ("'" ++ name ++ "'").toList = '\x27' :: (name.toList ++ ['\x27']) := by
  rw [String.toList_append, String.toList_append]
  rfl

theorem isWord_of_isIdentifier (h : isIdentifier name = true) (hname : Quotable name) :
    IsWord name.toList := by
  have hline : dropFinalLineFeed name.toList = name.toList := by
    rw [dropFinalLineFeed, if_neg]
    rw [beq_iff_eq]
    exact fun hlast => hname '\n' (List.mem_of_getLast? hlast) (by decide)
  rw [isIdentifier, hline] at h
  cases htext : name.toList with
  | nil =>
      rw [htext] at h
      cases h
  | cons first rest =>
      rw [htext, Bool.and_eq_true, List.all_eq_true] at h
      exact ⟨first, rest, rfl, isNameStart_of_isIdentifierStart h.1,
        fun c hc => isNameChar_of_isIdentifierChar (h.2 c hc)⟩

theorem key_renderName (h : Quotable name) : Key (renderName name).toList := by
  rw [renderName]
  split
  · rename_i hidentifier
    exact .word (isWord_of_isIdentifier hidentifier h)
  · rw [toList_quoted]
    exact .quoted h

/-- The quotes that are put around a name are taken off again. -/
theorem trimQuotes_renderName (h : trimQuotes name = name) : trimQuotes (renderName name) = name := by
  rw [renderName]
  split
  · exact h
  · have hquotes : ∀ c ∈ ['\x27'], (c == '\x27' || c == '\x22') = true :=
      List.forall_mem_singleton.2 rfl
    conv_rhs => rw [← h]
    rw [trimQuotes, trimQuotes, toList_quoted, ← List.singleton_append,
      trimWhile_append hquotes hquotes]

/-! ### Legible types -/

/-- The texts in the type bind as they should, each of them where it stands. -/
inductive Legible : Site → TypeExpr → Prop where
  | unknown (site : Site) : Legible site .unknown
  | void (site : Site) : Legible site .void
  | primitive {site : Site} {name : String} (h : ReadAt site name (.primitive name)) :
      Legible site (.primitive name)
  | named {site : Site} {text : String} (h : ReadAt site text (.named text)) :
      Legible site (.named text)
  | array {site : Site} {element : TypeExpr}
      (hbare : (mayNeedParentheses element && !isPlain element.render) = false)
      (helement : Legible .element element) : Legible site (.array element)
  | enclosed {site : Site} {element : TypeExpr}
      (hclosed : (mayNeedParentheses element && !isPlain element.render) = true)
      (hopens : Enclosable element.render.toList) (helement : Legible .whole element) :
      Legible site (.array element)
  | record {site : Site} {fields : List Field} (hnames : ∀ field ∈ fields, Quotable field.name)
      (htypes : ∀ field ∈ fields, Legible .whole field.type) : Legible site (.record fields)
  | union {members : List TypeExpr} (hinside : ∀ member ∈ members.dropLast, Legible .member member)
      (hlast : ∀ member ∈ members.getLast?, Legible .last member) : Legible .whole (.union members)

theorem readAt_unknown (site : Site) : ReadAt site (render .unknown) .unknown := by
  have h := @readAt_predefined "unknown" (by decide) site
  rwa [writtenType.eq_def] at h

theorem readAt_void (site : Site) : ReadAt site (render .void) .void := by
  have h := @readAt_predefined "void" (by decide) site
  rwa [writtenType.eq_def] at h

/-- The words that are primitive types. -/
def primitiveWords : List String :=
  ["any", "number", "boolean", "string", "symbol", "never", "object", "null", "undefined"]

/-- A word binds to nothing next to it. -/
theorem readAt_primitive (h : name ∈ primitiveWords) (site : Site) :
    ReadAt site name (.primitive name) := by
  have hwords : ∀ word ∈ primitiveWords, (word ∈ predefinedNames ∧ word ≠ "unknown" ∧ word ≠ "void") ∨
      (word, Kind.nullLiteral) ∈ literalWords ∨ (word, Kind.undefinedLiteral) ∈ literalWords := by decide
  rcases hwords name h with ⟨hname, hunknown, hvoid⟩ | hnull | hundefined
  · have hread := readAt_predefined hname site
    have hwritten : writtenType (.leaf {} .predefinedType name) = .primitive name := by
      rw [writtenType.eq_def]
      simp [Node.kind, Node.text]
    rwa [hwritten] at hread
  · have hread := readAt_literalWord hnull site
    simp only [literalWords, List.mem_cons, Prod.mk.injEq, List.not_mem_nil, or_false] at hnull
    obtain rfl : name = "null" := by simpa using hnull
    rwa [writtenType.eq_def] at hread
  · have hread := readAt_literalWord hundefined site
    obtain rfl : name = "undefined" := by simpa [literalWords] using hundefined
    rwa [writtenType.eq_def] at hread

theorem legible_of_mem_primitiveWords (h : name ∈ primitiveWords) (site : Site) :
    Legible site (.primitive name) := .primitive (readAt_primitive h site)

/-- The text of a legible type is read as the type. -/
theorem Legible.readAt (h : Legible site type) (hnormal : Normal type) :
    ReadAt site type.render type := by
  induction h with
  | unknown site => exact readAt_unknown site
  | void site => exact readAt_void site
  | primitive h => exact h
  | named h => exact h
  | array hbare _ ih =>
      cases hnormal with
      | array helement =>
          rw [render]
          rw [hbare, if_neg Bool.false_ne_true]
          exact readAt_array (ih helement) _
  | enclosed hclosed hopens _ ih =>
      cases hnormal with
      | array helement =>
          rw [render]
          rw [hclosed, if_pos rfl]
          exact readAt_enclosed (ih helement) hopens _
  | record hnames _ ih =>
      cases hnormal with
      | record htrimmed htypes =>
          exact readAt_record (fun field hfield =>
            { key := key_renderName (hnames field hfield)
              name := trimQuotes_renderName (htrimmed field hfield)
              type := ih field hfield (htypes field hfield) }) _
  | union _ _ ihInside ihLast =>
      refine readAt_union hnormal ?_
      cases hnormal with
      | union _ _ _ hnormal =>
          exact
            { inside := fun member hmember =>
                ihInside member hmember (hnormal member (List.dropLast_subset _ hmember))
              last := fun member hmember =>
                ihLast member hmember (hnormal member (List.mem_of_getLast? hmember)) }

end RouteBinder.Analysis
