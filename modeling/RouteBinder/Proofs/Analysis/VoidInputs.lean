import RouteBinder.Proofs.Analysis.DestructuredFields
import RouteBinder.Proofs.Analysis.HandledVerbs
import RouteBinder.Proofs.Analysis.VoidTypes

/-!
# RouteBinder.Proofs.Analysis.VoidInputs

**When a handler takes nothing.** A `GET` that binds no payload takes nothing, and of any other handler of
which nothing is found out nothing is known. The type of a payload is not taken from this rule, however,
when a schema or an annotation says what it is; and these can say `void` for every verb, and for a payload
that is bound. So a handler takes nothing also when the first thing that is known of its payload is that
it is void (`input_eq_void_iff`), for instance a `POST` that gives it to a function which takes nothing
(`input_eq_void_post`).
-/

namespace RouteBinder.Analysis

open Source TypeExpr Body

/-! ### What is known of a payload -/

/-- In the first of the calls that relates to any part of it, this is the part. -/
def First (relates : Node → Node → Prop) (calls : List Node) (part : Node) : Prop :=
  ∃ before call after, calls = before ++ call :: after ∧ relates call part ∧
    ∀ other ∈ before, ∀ part, ¬ relates other part

theorem findSome?_eq_some_iff_first {relates : Node → Node → Prop} {typeIn : Node → TypeExpr}
    {find : Node → Option TypeExpr}
    (h : ∀ call type, find call = some type ↔ ∃ part, relates call part ∧ typeIn part = type)
    {calls : List Node} {type : TypeExpr} :
    calls.findSome? find = some type ↔ ∃ part, First relates calls part ∧ typeIn part = type := by
  have hnone : ∀ call, find call = none ↔ ∀ part, ¬ relates call part := by
    intro call
    rw [Option.eq_none_iff_forall_ne_some]
    constructor
    · exact fun hne part hpart => hne _ ((h call _).2 ⟨part, hpart, rfl⟩)
    · intro hno type htype
      obtain ⟨part, hpart, -⟩ := (h call type).1 htype
      exact hno part hpart
  rw [List.findSome?_eq_some_iff]
  constructor
  · rintro ⟨before, call, after, hcalls, hcall, hbefore⟩
    obtain ⟨part, hpart, htype⟩ := (h call type).1 hcall
    exact ⟨part, ⟨before, call, after, hcalls, hpart, fun other ho => (hnone other).1 (hbefore other ho)⟩,
      htype⟩
  · rintro ⟨part, ⟨before, call, after, hcalls, hpart, hbefore⟩, htype⟩
    exact ⟨before, call, after, hcalls, (h call type).2 ⟨part, hpart, htype⟩,
      fun other ho => (hnone other).2 (hbefore other ho)⟩

variable {cx : HandlerContext} {verb : String}

/-- The call validates the payload with the schema. -/
def Validates (cx : HandlerContext) (call schema : Node) : Prop :=
  ∃ method payload rest, (call.field? .function).bind Node.memberParts? = some (schema, method) ∧
    call.callArguments = payload :: rest ∧ method ∈ validatorMethods ∧ cx.isPayload payload = true

/-- The call gives the payload to a function in scope, whose first parameter has the type clause. -/
def Annotates (cx : HandlerContext) (call clause : Node) : Prop :=
  ∃ callee function parameter, call.unwrappedField? .function = some callee ∧
    callee.kind = .identifier ∧ call.callArguments.any cx.isPayload = true ∧
    (cx.scope.lookup? callee.text).bind Binding.function = some function ∧
    function.functionParameters.head? = some parameter ∧ parameter.field? .type = some clause

theorem validatedType?_eq_some_iff {type : TypeExpr} : validatedType? cx = some type ↔
    ∃ schema, First (Validates cx) cx.calls schema ∧ validatorType cx.scope schema = type := by
  refine findSome?_eq_some_iff_first fun call type => ?_
  unfold Validates
  cases hparts : (call.field? .function).bind Node.memberParts? with
  | none => simp
  | some parts =>
      cases hargs : call.callArguments with
      | nil => simp
      | cons payload rest =>
          obtain ⟨schema, method⟩ := parts
          simp only [Option.ite_none_right_eq_some, Bool.and_eq_true, List.contains_iff_mem,
            Option.some.injEq, Prod.mk.injEq, List.cons.injEq]
          constructor
          · rintro ⟨⟨hmethod, hpayload⟩, htype⟩
            exact ⟨schema, ⟨method, payload, rest, ⟨rfl, rfl⟩, ⟨rfl, rfl⟩, hmethod, hpayload⟩, htype⟩
          · rintro ⟨_, ⟨_, _, _, ⟨rfl, rfl⟩, ⟨rfl, rfl⟩, hmethod, hpayload⟩, htype⟩
            exact ⟨⟨hmethod, hpayload⟩, htype⟩

theorem helperType?_eq_some_iff {type : TypeExpr} : helperType? cx = some type ↔
    ∃ clause, First (Annotates cx) cx.calls clause ∧ writtenType clause = type := by
  refine findSome?_eq_some_iff_first fun call type => ?_
  unfold Annotates
  cases hcallee : call.unwrappedField? .function with
  | none => simp
  | some callee =>
      simp only [Option.ite_none_right_eq_some, Bool.and_eq_true, beq_iff_eq, Option.map_eq_some_iff,
        Option.bind_eq_some_iff, Option.some.injEq]
      constructor
      · rintro ⟨⟨hkind, hpayload⟩, clause, ⟨parameter, ⟨function, hfunction, hparameter⟩, htype⟩,
          hwritten⟩
        exact ⟨clause, ⟨callee, function, parameter, rfl, hkind, hpayload, hfunction, hparameter,
          htype⟩, hwritten⟩
      · rintro ⟨clause, ⟨_, function, parameter, rfl, hkind, hpayload, hfunction, hparameter, htype⟩,
          hwritten⟩
        exact ⟨⟨hkind, hpayload⟩, clause, ⟨parameter, ⟨function, hfunction, hparameter⟩, htype⟩,
          hwritten⟩

/-! ### Payloads that are said to be void -/

/-- Wrappers around a schema make no difference. -/
theorem schemaType?_of_unwrap? {scope : Scope} {schema inner : Node} (h : schema.unwrap? = some inner) :
    schemaType? scope inner = schemaType? scope schema := by
  rw [schemaType?, schemaType?, Schema.interpret_eq, Schema.interpret_eq, Schema.expressionRule,
    Schema.expressionRule, h, Node.unwrap?_of_unwrap? h]

/-- What a name stands for comes first from its annotation, also where it is read as a schema. -/
theorem schemaType?_of_declaredType? {scope : Scope} {node : Node} {type : TypeExpr}
    (hunwrap : node.unwrap? = some node) (hkind : node.kind = .identifier)
    (h : Schema.declaredType? scope node.text = some type) : schemaType? scope node = some type := by
  have hname : Schema.IsName node node.text := ⟨node, hunwrap, hkind, rfl⟩
  rw [schemaType?, Schema.interpret_eq, Schema.expressionRule_of_isName hname, Schema.followName, h]
  rfl

theorem validatorType_eq_void_iff {scope : Scope} {schema : Node} :
    validatorType scope schema = .void ↔ Schema.VoidSchema scope [] schema := by
  rw [← Schema.schemaType?_eq_void_iff, validatorType]
  cases hunwrap : schema.unwrap? with
  | none =>
      have hnone : schemaType? scope schema = none := by
        rw [schemaType?, Schema.interpret_eq, Schema.expressionRule, hunwrap]
        rfl
      simp [hnone]
  | some inner =>
      have hinner := Node.unwrap?_of_unwrap? hunwrap
      dsimp only
      rw [← schemaType?_of_unwrap? hunwrap]
      split
      · rename_i hkind
        cases hdeclared : Schema.declaredType? scope inner.text with
        | none => cases schemaType? scope inner <;> simp
        | some type =>
            rw [schemaType?_of_declaredType? hinner (beq_iff_eq.1 hkind) hdeclared]
            simp
      · cases schemaType? scope inner <;> simp

theorem usedType?_ne_void : usedType? cx ≠ some .void := by
  intro hvoid
  cases hbody : cx.function.field? .body with
  | none =>
      rw [usedType?, hbody] at hvoid
      cases hvoid
  | some body =>
      rw [usedType?_eq hbody, Usage.recordOf?] at hvoid
      split at hvoid
      · cases hvoid
      · cases hvoid

/-- Nothing is found out of the payload. -/
structure Uninformed (cx : HandlerContext) : Prop where
  notValidated : informative (validatedType? cx) = none
  notAnnotated : informative (helperType? cx) = none
  unused : informative (usedType? cx) = none

/-- The first thing that is known of the payload is that it is void: the first schema that it is validated
with accepts nothing else, or this tells nothing and the first function that it is given to takes nothing
else. -/
def SaysVoid (cx : HandlerContext) : Prop :=
  (∃ schema, First (Validates cx) cx.calls schema ∧ Schema.VoidSchema cx.scope [] schema) ∨
    informative (validatedType? cx) = none ∧
      ∃ clause, First (Annotates cx) cx.calls clause ∧ WritesVoid clause

theorem saysVoid_iff : SaysVoid cx ↔ validatedType? cx = some .void ∨
    informative (validatedType? cx) = none ∧ helperType? cx = some .void := by
  simp only [SaysVoid, validatedType?_eq_some_iff, helperType?_eq_some_iff, validatorType_eq_void_iff,
    writtenType_eq_void_iff]

theorem informative_eq_some_iff {type? : Option TypeExpr} {type : TypeExpr} :
    informative type? = some type ↔ type? = some type ∧ type.isUnknown = false := by
  rw [informative, Option.filter_eq_some_iff, Bool.not_eq_true']

theorem inputType_of_uninformed (h : Uninformed cx) : inputType cx verb =
    if verb = "GET" ∧ cx.payload.isEmpty = true then .void else .unknown := by
  rw [inputType, h.notValidated, h.notAnnotated, h.unused]
  simp

theorem ne_void_of_informative {type? : Option TypeExpr} (h : informative type? = none) :
    type? ≠ some .void := by
  rintro rfl
  cases h

theorem inputType_of_validated {type : TypeExpr} (h : informative (validatedType? cx) = some type) :
    inputType cx verb = type := by
  rw [inputType, h]
  rfl

theorem inputType_of_annotated {type : TypeExpr} (hvalidated : informative (validatedType? cx) = none)
    (h : informative (helperType? cx) = some type) : inputType cx verb = type := by
  rw [inputType, hvalidated, h]
  rfl

theorem inputType_of_used {type : TypeExpr} (hvalidated : informative (validatedType? cx) = none)
    (hannotated : informative (helperType? cx) = none) (h : informative (usedType? cx) = some type) :
    inputType cx verb = type := by
  rw [inputType, hvalidated, hannotated, h]
  rfl

/-- A handler takes nothing if its payload is said to be void, or if it is a `GET` without a payload of
which nothing is found out. -/
theorem inputType_eq_void_iff : inputType cx verb = .void ↔
    SaysVoid cx ∨ Uninformed cx ∧ verb = "GET" ∧ cx.payload.isEmpty = true := by
  rw [saysVoid_iff]
  cases hvalidated : informative (validatedType? cx) with
  | some type =>
      have huninformed : ¬ Uninformed cx := fun h => by simp [h.notValidated] at hvalidated
      rw [inputType_of_validated hvalidated, (informative_eq_some_iff.1 hvalidated).1]
      simp [huninformed]
  | none =>
      have hvalidatedNe := ne_void_of_informative hvalidated
      cases hannotated : informative (helperType? cx) with
      | some type =>
          have huninformed : ¬ Uninformed cx := fun h => by simp [h.notAnnotated] at hannotated
          rw [inputType_of_annotated hvalidated hannotated, (informative_eq_some_iff.1 hannotated).1]
          simp [hvalidatedNe, huninformed]
      | none =>
          have hannotatedNe := ne_void_of_informative hannotated
          cases hused : informative (usedType? cx) with
          | some type =>
              have huninformed : ¬ Uninformed cx := fun h => by simp [h.unused] at hused
              have htype : type ≠ .void := fun heq =>
                usedType?_ne_void (heq ▸ (informative_eq_some_iff.1 hused).1)
              rw [inputType_of_used hvalidated hannotated hused]
              simp [hvalidatedNe, hannotatedNe, huninformed, htype]
          | none =>
              have huninformed : Uninformed cx := ⟨hvalidated, hannotated, hused⟩
              rw [inputType_of_uninformed huninformed]
              simp [huninformed, hvalidatedNe, hannotatedNe]

/-! ### Handlers that take nothing -/

theorem exists_site_of_analyze [Recovery] {source : String} {origin : Option FileSystem.Path}
    {analysis : ModuleAnalysis} {handler : Handler} (h : analyze source origin = .ok analysis)
    (hhandler : handler ∈ analysis.handlers) :
    ∃ program site, Grammar.parse? source = some program ∧ site ∈ discoverHandlers program ∧
      describe program (.ofModule program) site = .ok handler := by
  obtain ⟨program, handlers, hparse, hmap, rfl⟩ := analyze_eq_ok.1 h
  have hdescribed : Typing.Ensures (fun handlers => ∀ handler ∈ handlers,
      ∃ site ∈ discoverHandlers program, describe program (.ofModule program) site = .ok handler)
      ((discoverHandlers program).mapM (describe program (.ofModule program))) :=
    Typing.ensures_mapM fun site hsite handler hd => ⟨site, hsite, hd⟩
  obtain ⟨site, hsite, hd⟩ := hdescribed handlers hmap handler hhandler
  exact ⟨program, site, hparse, hsite, hd⟩

theorem input_of_describe [Recovery] {program : Node} {module : Scope} {site : HandlerSite}
    {handler : Handler} (h : describe program module site = .ok handler) :
    handler.verb = site.verb ∧ handler.input = inputType (.ofFunction site.function module) site.verb := by
  rw [describe] at h
  cases hout : outputType (HandlerContext.ofFunction site.function module).scope site.function
      site.returnType with
  | error cause =>
      simp only [hout] at h
      cases h
  | ok output =>
      simp only [hout] at h
      cases h
      exact ⟨rfl, rfl⟩

/-- For every handler of every route file: it takes nothing if its payload is said to be void, or if it is a
`GET` without a payload of which nothing is found out; of other handlers of which nothing is found out,
nothing is known. So only a `GET` without a payload takes nothing, unless the payload of another handler is
said to be void. -/
theorem input_eq_void_iff [Recovery] {source : String} {origin : Option FileSystem.Path}
    {analysis : ModuleAnalysis} {handler : Handler} (h : analyze source origin = .ok analysis)
    (hhandler : handler ∈ analysis.handlers) :
    ∃ program site cx, Grammar.parse? source = some program ∧ site ∈ discoverHandlers program ∧
      describe program (.ofModule program) site = .ok handler ∧
      cx = HandlerContext.ofFunction site.function (.ofModule program) ∧
      (handler.input = .void ↔
        SaysVoid cx ∨ Uninformed cx ∧ handler.verb = "GET" ∧ cx.payload.isEmpty = true) ∧
      (Uninformed cx → handler.input =
        if handler.verb = "GET" ∧ cx.payload.isEmpty = true then .void else .unknown) ∧
      ((handler.input = .void → handler.verb = "GET" ∧ cx.payload.isEmpty = true) ↔
        ¬ (SaysVoid cx ∧ ¬ (handler.verb = "GET" ∧ cx.payload.isEmpty = true))) := by
  obtain ⟨program, site, hparse, hsite, hd⟩ := exists_site_of_analyze h hhandler
  obtain ⟨hverb, hinput⟩ := input_of_describe hd
  refine ⟨program, site, _, hparse, hsite, hd, rfl, ?_, ?_, ?_⟩
  · rw [hinput, hverb]
    exact inputType_eq_void_iff
  · intro huninformed
    rw [hinput, hverb]
    exact inputType_of_uninformed huninformed
  · rw [hinput, hverb, inputType_eq_void_iff]
    tauto

/-! ### A payload that has to be missing -/

/-- A handler for the verb that gives its payload to a function which takes nothing. -/
def handing (verb : String) : String :=
  "function f(x: void) \x7b\x7d\nexport function " ++ verb ++ "(r): T \x7b\n  f(r.body);\n\x7d\n"

/-- Is there a handler for the verb that takes nothing? -/
def takesNothing [Recovery] (verb source : String) : Bool :=
  match analyze source none with
  | .ok analysis => analysis.handlers.any fun handler => handler.verb = verb && handler.input = .void
  | .error _ => false

theorem exists_of_takesNothing [Recovery] {verb source : String} (h : takesNothing verb source = true) :
    ∃ analysis handler, analyze source none = .ok analysis ∧ handler ∈ analysis.handlers ∧
      handler.verb = verb ∧ handler.input = .void := by
  rw [takesNothing] at h
  split at h
  · rename_i analysis hanalysis
    obtain ⟨handler, hhandler, h⟩ := List.any_eq_true.1 h
    simp only [Bool.and_eq_true, decide_eq_true_eq] at h
    exact ⟨analysis, handler, hanalysis, hhandler, h.1, h.2⟩
  · cases h

attribute [local instance] Recovery.verbatim

set_option maxRecDepth 1000000 in
/-- A `GET` that binds no payload, and whose payload is said to be void as well. -/
theorem input_eq_void_handing : ∃ analysis handler program site cx,
    analyze (handing "GET") none = .ok analysis ∧ handler ∈ analysis.handlers ∧
      Grammar.parse? (handing "GET") = some program ∧ site ∈ discoverHandlers program ∧
      cx = HandlerContext.ofFunction site.function (.ofModule program) ∧ handler.input = .void ∧
      (SaysVoid cx ∨ Uninformed cx ∧ handler.verb = "GET" ∧ cx.payload.isEmpty = true) := by
  obtain ⟨analysis, handler, hanalysis, hhandler, -, hinput⟩ :=
    @exists_of_takesNothing _ "GET" (handing "GET") (by decide +kernel)
  obtain ⟨program, site, cx, hparse, hsite, -, hcx, hvoid, -⟩ := input_eq_void_iff hanalysis hhandler
  exact ⟨analysis, handler, program, site, cx, hanalysis, hhandler, hparse, hsite, hcx, hinput,
    hvoid.1 hinput⟩

set_option maxRecDepth 1000000 in
/-- A `POST` whose payload is said to be void. -/
theorem input_eq_void_post : ∃ analysis handler,
    analyze (handing "POST") none = .ok analysis ∧ handler ∈ analysis.handlers ∧
      handler.verb = "POST" ∧ handler.input = .void :=
  exists_of_takesNothing (by decide +kernel)

end RouteBinder.Analysis
