import RouteBinder.Proofs.Analysis.Termination
import RouteBinder.Proofs.Text.Brackets

/-!
# RouteBinder.Proofs.Analysis.DeclaredTypes

**Declared return types without their promise.** A generic type is recognised by what its text begins and
ends with (`unwrapGeneric?_eq_some_iff`). So the text `Promise<A> | Promise<B>` passes for one promise too,
and what is left of it is `A> | Promise<B`. Whether the brackets of what is left are nested depends on this
alone: they are exactly when the bracket at the end is the partner of the first one
(`nested_unwrapGeneric?_iff`), and with them the type that a handler declares (`nested_declaredType_iff`).
-/

namespace RouteBinder

namespace TypeExpr

open Text

variable {text wrapper inner : String} {content : List Char}

/-- The text is `wrapper<content>`, up to blanks at its ends. -/
def IsGeneric (text wrapper : String) (content : List Char) : Prop :=
  trimWhile isBlank text.toList = wrapper.toList ++ '<' :: (content ++ ['>'])

/-- The bracket at the end is the partner of the first one if the text passes for a generic type. -/
def BracketsMatch (text wrapper : String) : Prop :=
  ∀ content, IsGeneric text wrapper content → Whole ('<' :: (content ++ ['>']))

theorem IsGeneric.content_eq {other : List Char} (h : IsGeneric text wrapper content)
    (hother : IsGeneric text wrapper other) : content = other := by
  have hsame := (List.append_cancel_left (h.symm.trans hother))
  exact List.append_cancel_right (List.cons.inj hsame).2

theorem isGeneric_trim_iff : IsGeneric (trim text) wrapper content ↔ IsGeneric text wrapper content := by
  rw [IsGeneric, IsGeneric, trim, String.toList_ofList, trimWhile_trimWhile]

theorem bracketsMatch_trim_iff : BracketsMatch (trim text) wrapper ↔ BracketsMatch text wrapper := by
  simp only [BracketsMatch, isGeneric_trim_iff]

theorem unwrapGeneric?_eq_some_iff : unwrapGeneric? text wrapper = some inner ↔
    ∃ content, IsGeneric text wrapper content ∧ inner = trim (String.ofList content) := by
  unfold unwrapGeneric? IsGeneric
  rw [trim, String.toList_ofList]
  generalize trimWhile isBlank text.toList = body
  constructor
  · intro h
    rw [Option.ite_none_right_eq_some, Bool.and_eq_true, List.isPrefixOf_iff_prefix, beq_iff_eq] at h
    obtain ⟨⟨⟨rest, rfl⟩, hlast⟩, hinner⟩ := h
    rw [List.drop_left] at hinner
    have hne : rest ≠ [] := by
      -- Otherwise the text would end with the first bracket.
      rintro rfl
      rw [List.append_nil, List.getLast?_concat] at hlast
      cases hlast
    rw [List.getLast?_append_of_ne_nil _ hne] at hlast
    obtain ⟨content, rfl⟩ := List.getLast?_eq_some_iff.1 hlast
    rw [List.dropLast_concat] at hinner
    exact ⟨content, by simp, (Option.some.inj hinner).symm⟩
  · rintro ⟨content, rfl, rfl⟩
    have hbody : wrapper.toList ++ '<' :: (content ++ ['>']) =
        (wrapper.toList ++ ['<']) ++ (content ++ ['>']) := by simp
    have hrecognised : ((wrapper.toList ++ ['<']).isPrefixOf (wrapper.toList ++ ['<'] ++ (content ++ ['>'])) &&
        (wrapper.toList ++ ['<'] ++ (content ++ ['>'])).getLast? == some '>') = true := by
      rw [Bool.and_eq_true, List.isPrefixOf_iff_prefix, beq_iff_eq]
      exact ⟨List.prefix_append _ _, by rw [← List.append_assoc, List.getLast?_concat]⟩
    rw [hbody, if_pos hrecognised, List.drop_left, List.dropLast_concat]

theorem nested_trim_iff : Nested (trim text).toList ↔ Nested text.toList := by
  rw [trim, String.toList_ofList, nested_trimWhile_iff]

/-- What stands between the brackets is nested exactly when they are partners. -/
theorem nested_content_iff (hwrapper : ∀ c ∈ wrapper.toList, isNeutral c = true)
    (hnested : Nested text.toList) (h : IsGeneric text wrapper content) :
    Nested (trim (String.ofList content)).toList ↔ BracketsMatch text wrapper := by
  have htext : Nested ('<' :: (content ++ ['>'])) := by
    rw [← nested_trimWhile_iff, h, (nested_of_isNeutral hwrapper).append_iff] at hnested
    exact hnested
  rw [nested_trim_iff, String.toList_ofList, nested_inner_iff rfl htext]
  constructor
  · intro hwhole other hother
    rwa [← h.content_eq hother]
  · exact fun hmatch => hmatch content h

theorem nested_unwrapGeneric?_iff (hwrapper : ∀ c ∈ wrapper.toList, isNeutral c = true)
    (hnested : Nested text.toList) (h : unwrapGeneric? text wrapper = some inner) :
    Nested inner.toList ↔ BracketsMatch text wrapper := by
  obtain ⟨content, hgeneric, rfl⟩ := unwrapGeneric?_eq_some_iff.1 h
  exact nested_content_iff hwrapper hnested hgeneric

end TypeExpr

namespace Analysis

open Source Text TypeExpr

variable {declared : String}

theorem isNeutral_of_mem_promise : ∀ c ∈ "Promise".toList, isNeutral c = true :=
  List.all_eq_true.1 (by decide)

/-- The declared return type, without its promise, has brackets that are nested exactly when the brackets
of the promise are partners. -/
theorem nested_settledType_iff (hnested : Nested declared.toList) :
    Nested (settledType declared).toList ↔ BracketsMatch declared "Promise" := by
  rw [← nested_trim_iff] at hnested
  rw [← bracketsMatch_trim_iff]
  unfold settledType
  dsimp only
  generalize trim declared = text at hnested
  cases hunwrap : present (unwrapGeneric? text "Promise") with
  | some inner =>
      rw [Option.getD_some]
      exact nested_unwrapGeneric?_iff isNeutral_of_mem_promise hnested (Option.filter_eq_some_iff.1 hunwrap).1
  | none =>
      -- There is no promise, or nothing stands between its brackets.
      rw [Option.getD_none]
      refine iff_of_true hnested fun content hgeneric => ?_
      have hinner := unwrapGeneric?_eq_some_iff.2 ⟨content, hgeneric, rfl⟩
      rw [hinner] at hunwrap
      have hempty : trim (String.ofList content) = "" := by
        simpa [present] using hunwrap
      refine (nested_content_iff isNeutral_of_mem_promise hnested hgeneric).1 ?_ content hgeneric
      rw [hempty]
      exact .nil

/-- A handler is typed with its declared return type: this says more than that a response is returned, or
else no returned response has a type. -/
structure TakesDeclared (scope : Scope) (function : Node) (declared : String) : Prop where
  declares : settledType declared ≠ ""
  untyped : genericBase (settledType declared) ∈ responseClasses →
    firstResponseType? scope function.returnedExpressions = .ok none

theorem outputType_of_takesDeclared {scope : Scope} {function : Node}
    (h : TakesDeclared scope function declared) :
    outputType scope function (some declared) = .ok (.named (settledType declared)) := by
  have hpresent : present ((some declared).map settledType) = some (settledType declared) := by
    simp [present, h.declares]
  unfold outputType
  simp only [hpresent, Option.filter_some]
  split
  · rename_i text htext
    rw [Option.some.inj (Option.ite_none_right_eq_some.1 htext).2]
  · rename_i hwrapper
    have hwrapper : genericBase (settledType declared) ∈ responseClasses := by
      simpa using hwrapper
    rw [h.untyped hwrapper]
    rfl

/-- A declared return type with nested brackets that is taken as the type of a handler has nested brackets
without its promise too, exactly when the brackets that were removed are partners. -/
theorem nested_declaredType_iff {scope : Scope} {function : Node} (hnested : Nested declared.toList)
    (htaken : TakesDeclared scope function declared) :
    outputType scope function (some declared) = .ok (.named (settledType declared)) ∧
    (Nested (settledType declared).toList ↔ BracketsMatch declared "Promise") ∧
    ∀ inner, unwrapGeneric? declared "Promise" = some inner →
      (Nested inner.toList ↔ BracketsMatch declared "Promise") :=
  ⟨outputType_of_takesDeclared htaken, nested_settledType_iff hnested, fun _ =>
    nested_unwrapGeneric?_iff isNeutral_of_mem_promise hnested⟩

/-- A handler that declares a return type. -/
def declaring (declared : String) : String :=
  "export function GET(): " ++ declared ++ " \x7b\n  return f();\n\x7d\n"

/-- The only handler declares that type, and is typed with it as it is left without its promise. -/
def isTypedAs (declared taken : String) (program : Node) : Bool :=
  (discoverHandlers program).any fun site => site.returnType = some declared &&
    (settledType declared = taken && taken ≠ "" && !responseClasses.contains (genericBase taken))

theorem exists_takesDeclared_of_isTypedAs {taken : String}
    (h : (Grammar.parse? (declaring declared)).any (isTypedAs declared taken) = true) :
    ∃ program site, Grammar.parse? (declaring declared) = some program ∧
      site ∈ discoverHandlers program ∧ site.returnType = some declared ∧
      TakesDeclared (handlerScope program site) site.function declared ∧ settledType declared = taken := by
  obtain ⟨program, hparse, hprogram⟩ := (Option.any_eq_true _ _).1 h
  obtain ⟨site, hsite, hcheck⟩ := List.any_eq_true.1 hprogram
  simp only [Bool.and_eq_true, decide_eq_true_eq, Bool.not_eq_true', List.contains_eq_mem,
    decide_eq_false_iff_not] at hcheck
  obtain ⟨hreturn, ⟨rfl, hne⟩, hbase⟩ := hcheck
  exact ⟨program, site, hparse, hsite, hreturn, ⟨hne, fun h => absurd h hbase⟩, rfl⟩

set_option maxRecDepth 1000000 in
/-- Brackets of every kind within the promise. -/
theorem nested_declaredType_map : ∃ program site,
    Grammar.parse? (declaring "Promise<Map<string, [A, \x7b b: (B) \x7d[]]>>") = some program ∧
      site ∈ discoverHandlers program ∧
      outputType (handlerScope program site) site.function site.returnType =
        .ok (.named "Map<string, [A, \x7b b: (B) \x7d[]]>") ∧
      Nested "Map<string, [A, \x7b b: (B) \x7d[]]>".toList ∧
      BracketsMatch "Promise<Map<string, [A, \x7b b: (B) \x7d[]]>>" "Promise" := by
  have hnested : Nested "Promise<Map<string, [A, \x7b b: (B) \x7d[]]>>".toList := by decide +kernel
  obtain ⟨program, site, hparse, hsite, hreturn, htaken, hsettled⟩ :=
    @exists_takesDeclared_of_isTypedAs "Promise<Map<string, [A, \x7b b: (B) \x7d[]]>>"
      "Map<string, [A, \x7b b: (B) \x7d[]]>" (by decide +kernel)
  obtain ⟨htype, hiff, -⟩ := nested_declaredType_iff hnested htaken
  rw [hsettled] at htype hiff
  have hinner : Nested "Map<string, [A, \x7b b: (B) \x7d[]]>".toList := by decide +kernel
  exact ⟨program, site, hparse, hsite, hreturn ▸ htype, hinner, hiff.1 hinner⟩

set_option maxRecDepth 1000000 in
/-- Two promises side by side pass for one: the first and the last bracket of the text are removed though
each has its partner within the text. -/
theorem not_nested_declaredType_union : ∃ program site,
    Grammar.parse? (declaring "Promise<A> | Promise<B>") = some program ∧
      site ∈ discoverHandlers program ∧ site.returnType = some "Promise<A> | Promise<B>" ∧
      ¬ "=>".toList <:+: "Promise<A> | Promise<B>".toList ∧
      Nested "Promise<A> | Promise<B>".toList ∧
      TakesDeclared (handlerScope program site) site.function "Promise<A> | Promise<B>" ∧
      outputType (handlerScope program site) site.function site.returnType =
        .ok (.named "A> | Promise<B") ∧
      ¬ Nested "A> | Promise<B".toList := by
  obtain ⟨program, site, hparse, hsite, hreturn, htaken, hsettled⟩ :=
    @exists_takesDeclared_of_isTypedAs "Promise<A> | Promise<B>" "A> | Promise<B" (by decide +kernel)
  have htype := outputType_of_takesDeclared htaken
  rw [hsettled] at htype
  exact ⟨program, site, hparse, hsite, hreturn, by decide +kernel, by decide +kernel, htaken,
    hreturn ▸ htype, by decide +kernel⟩

end Analysis

end RouteBinder
