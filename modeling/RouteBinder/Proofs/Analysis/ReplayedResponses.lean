import Mathlib.Data.List.Forall2
import RouteBinder.Body.Extraction
import RouteBinder.Proofs.Analysis.Termination
import RouteBinder.Proofs.Source.Spliced

/-!
# RouteBinder.Proofs.Analysis.ReplayedResponses

**The same responses fail when they are typed and when they are replayed.** Responses are looked at twice,
by recognitions of their own: the type of what a handler returns is read off the first response of success
(`responseType?`), and in the retained body a response becomes its payload, or throws it
(`unwrapResponse`). What the second writes for a node is described by `Unwraps`, in terms of the first: a
response throws exactly when it has no type. So the type of a handler is the type of a response that is
replayed as its payload, and no response that throws has a part in it (`outputType_replayed`).
-/

namespace RouteBinder

open Source Analysis

namespace Source.Node

variable {node : Node} {callee : String} {args : List Node}

theorem kind_of_callParts? (h : node.callParts? = some (callee, args)) :
    node.kind = .callExpression ∨ node.kind = .newExpression := by
  obtain ⟨inner, hinner, -⟩ := Option.map_eq_some_iff.1 h
  split at hinner
  · exact Or.inl ‹_›
  · exact Or.inr ‹_›
  · cases hinner

/-- A call stands under no wrapper and is not awaited by itself. -/
theorem unwrapAwait?_of_callParts? (h : node.callParts? = some (callee, args)) :
    node.unwrapAwait? = some node := by
  rw [unwrapAwait?_eq, unwrap?_eq]
  rcases kind_of_callParts? h with hkind | hkind <;> simp [hkind, Kind.isWrapper]

/-- Parts that are put together with the gaps between them. -/
theorem assemble_eq_join (parts : List Node) (written : Node → String) :
    assemble (parts.map fun part => (part.gap, written part)) =
      String.join (List.zipWith (· ++ ·) ("" :: parts.tail.map gap) (parts.map written)) := by
  cases parts with
  | nil => rfl
  | cons first rest =>
      rw [List.map_cons, assemble, List.map_cons, List.zipWith_cons_cons, List.tail_cons,
        String.join_cons, String.empty_append, List.zipWith_map, List.zipWith_self, List.map_map]
      rfl

end Source.Node

namespace Analysis

open Body Typing

variable {scope : Scope} {node returned : Node} {callee : String} {args : List Node}

/-! ### One response -/

/-- The node is a response that is made from the arguments. -/
def Responds (node : Node) (args : List Node) : Prop :=
  ∃ callee, node.callParts? = some (callee, args) ∧ IsResponse node callee

/-- The text for what a response carries, given the texts of values; a response without arguments
carries nothing. -/
inductive Carries (written : Node → String → Prop) : List Node → String → Prop where
  | nothing : Carries written [] "undefined"
  | value {value : Node} {rest : List Node} {text : String} (h : written value text) :
      Carries written (value :: rest) text

/-- An error is thrown, and its message is the payload. -/
def thrown (payload : String) : String :=
  "(() => \x7b const __body = " ++ payload ++ "; throw new Error(JSON.stringify(__body)); \x7d)()"

theorem throwing_eq : throwing = thrown := rfl

/-- The text of a node in which every response is replaced. -/
inductive Unwraps (scope : Scope) : Node → String → Prop where
  /-- What is no response is left alone. -/
  | leaf {place : Place} {kind : Kind} {text : String}
      (h : ∀ args, ¬ Responds (.leaf place kind text) args) :
      Unwraps scope (.leaf place kind text) text
  /-- It is left alone around the responses in it. -/
  | branch {place : Place} {kind : Kind} {parts : List Node} {texts : List String}
      (h : ∀ args, ¬ Responds (.branch place kind parts) args)
      (hparts : List.Forall₂ (Unwraps scope) parts texts) :
      Unwraps scope (.branch place kind parts)
        (String.join (List.zipWith (· ++ ·) ("" :: parts.tail.map Node.gap) texts))
  /-- A response that has a type becomes its payload. -/
  | payload {node : Node} {args : List Node} {text : String} (h : Responds node args)
      (htype : responseType? scope node ≠ .ok none) (hpayload : Carries (Unwraps scope) args text) :
      Unwraps scope node text
  /-- A response that has none throws its payload. -/
  | failure {node : Node} {args : List Node} {text : String} (h : Responds node args)
      (htype : responseType? scope node = .ok none) (hpayload : Carries (Unwraps scope) args text) :
      Unwraps scope node (thrown text)

/-- The typing of responses recognises them. -/
theorem successValue?_of_responds {response : Node} (hreturned : returned.unwrapAwait? = some response)
    (h : Responds response args) :
    successValue? returned = if Succeeds args then some (carriedValue? response args) else none := by
  obtain ⟨callee, hparts, hresponse⟩ := h
  simp only [successValue?, hreturned, hparts, hresponse, true_and]

theorem responseType?_eq_none_iff : responseType? scope returned = .ok none ↔
    successValue? returned = none := by
  rw [responseType?_eq]
  cases successValue? returned with
  | none => simp
  | some value => cases htype : typeOfValue scope value <;> simp [htype, Except.map]

theorem Responds.responseType?_eq_none_iff (h : Responds node args) :
    responseType? scope node = .ok none ↔ ¬ Succeeds args := by
  have hself : node.unwrapAwait? = some node := by
    obtain ⟨callee, hparts, -⟩ := h
    exact Node.unwrapAwait?_of_callParts? hparts
  rw [Analysis.responseType?_eq_none_iff, successValue?_of_responds hself h]
  by_cases hsuccess : Succeeds args <;> simp [hsuccess]

/-- The rule that replaces responses recognises them, too: of the calls and constructions it asks for other
names. -/
theorem responseSubstitution_of_responds (h : Responds node args) (write : Node → String) :
    responseSubstitution node write =
      some (if Succeeds args then (args.head?.map write).getD "undefined"
        else thrown ((args.head?.map write).getD "undefined")) := by
  obtain ⟨callee, hparts, hresponse⟩ := h
  have hstatus : isSuccess (args[1]?.bind responseStatus?) = true ↔ Succeeds args := by
    unfold Succeeds
    cases args[1]? with
    | none => exact iff_of_true rfl rfl
    | some options => simp [tellsFailure]
  rcases hresponse with ⟨hkind, hcallee⟩ | ⟨hkind, hcallee⟩ <;>
    simp [responseSubstitution, hparts, hkind, hcallee, hstatus, throwing_eq]

theorem leaves_of_not_responds (h : ∀ args, ¬ Responds node args) : responseSubstitution.Leaves node := by
  intro write
  unfold responseSubstitution
  split
  · rfl
  · rename_i callee args hparts
    have hnone : ¬ IsResponse node callee := fun hresponse => h args ⟨callee, hparts, hresponse⟩
    rcases Node.kind_of_callParts? hparts with hkind | hkind <;>
      simpa [IsResponse, hkind] using hnone

/-! ### What is written for a response -/

theorem Carries.imp {written other : Node → String → Prop} {text : String}
    (himp : ∀ value ∈ args, ∀ text, written value text → other value text) (h : Carries written args text) :
    Carries other args text := by
  cases h with
  | nothing => exact .nothing
  | value h => exact .value (himp _ List.mem_cons_self _ h)

/-- The rule writes that text for what a response carries. -/
abbrev WritesPayload (args : List Node) (text : String) : Prop :=
  Carries (fun value text => unwrapResponse ⟨value⟩ = text) args text

theorem WritesPayload.eq {text other : String} (h : WritesPayload args text)
    (hother : WritesPayload args other) : text = other := by
  cases h with
  | nothing => cases hother; rfl
  | value h => cases hother with | value hother => exact h.symm.trans hother

/-- The arguments are smaller than the response, so the responses in them are replaced, too. -/
theorem Responds.writesPayload (h : Responds node args) :
    WritesPayload args ((args.head?.map (responseSubstitution.writer node)).getD "undefined") := by
  obtain ⟨callee, hparts, -⟩ := h
  cases args with
  | nil => exact .nothing
  | cons value rest =>
      have hsize := (Node.inside_of_callParts? hparts List.mem_cons_self).size_lt
      exact .value (if_pos hsize).symm

theorem unwrapResponse_of_responds {text : String} (h : Responds node args)
    (hpayload : WritesPayload args text) :
    unwrapResponse ⟨node⟩ = if Succeeds args then text else thrown text := by
  refine Node.splice_of_answer ?_
  rw [Substitution.answer?, responseSubstitution_of_responds h, h.writesPayload.eq hpayload]

theorem Responds.size_lt (h : Responds node args) {value : Node} (hvalue : value ∈ args) :
    value.size < node.size := by
  obtain ⟨callee, hparts, -⟩ := h
  exact (Node.inside_of_callParts? hparts hvalue).size_lt

theorem unwrapResponse_leaf {place : Place} {kind : Kind} {text : String}
    (h : ∀ args, ¬ Responds (.leaf place kind text) args) :
    unwrapResponse ⟨.leaf place kind text⟩ = text :=
  Node.splice_leaf (leaves_of_not_responds h).answer?_eq_none

theorem unwrapResponse_branch {place : Place} {kind : Kind} {parts : List Node}
    (h : ∀ args, ¬ Responds (.branch place kind parts) args) :
    unwrapResponse ⟨.branch place kind parts⟩ =
      String.join (List.zipWith (· ++ ·) ("" :: parts.tail.map Node.gap)
        (parts.map fun part => unwrapResponse ⟨part⟩)) :=
  (Node.splice_branch (leaves_of_not_responds h).answer?_eq_none).trans (Node.assemble_eq_join parts _)

/-- What the rule writes for a node is what the types of the responses in it ask for. -/
theorem unwraps_unwrapResponse (scope : Scope) (node : Node) :
    Unwraps scope node (unwrapResponse ⟨node⟩) := by
  by_cases h : ∃ args, Responds node args
  · obtain ⟨args, h⟩ := h
    have hpayload := h.writesPayload
    have hcarries : Carries (Unwraps scope) args _ :=
      hpayload.imp fun value hvalue text hwritten => by
        have hsize := h.size_lt hvalue
        exact hwritten ▸ unwraps_unwrapResponse scope value
    rw [unwrapResponse_of_responds h hpayload]
    by_cases hsuccess : Succeeds args
    · rw [if_pos hsuccess]
      exact .payload h (fun htype => h.responseType?_eq_none_iff.1 htype hsuccess) hcarries
    · rw [if_neg hsuccess]
      exact .failure h (h.responseType?_eq_none_iff.2 hsuccess) hcarries
  · have hnone : ∀ args, ¬ Responds node args := fun args hresponds => h ⟨args, hresponds⟩
    cases node with
    | leaf place kind text =>
        rw [unwrapResponse_leaf hnone]
        exact .leaf hnone
    | branch place kind parts =>
        rw [unwrapResponse_branch hnone]
        refine .branch hnone (List.forall₂_map_right_iff.2 (List.forall₂_same.2 fun part hpart => ?_))
        have hsize : part.size < (Node.branch place kind parts).size := Node.size_lt_of_mem hpart
        exact unwraps_unwrapResponse scope part
termination_by node.size

/-- The types of the responses in a node leave no choice of the text. -/
theorem Unwraps.eq_unwrapResponse {node : Node} {text : String} (h : Unwraps scope node text) :
    unwrapResponse ⟨node⟩ = text := by
  have hpayload : ∀ {args : List Node} {text : String}, Responds node args →
      Carries (Unwraps scope) args text → WritesPayload args text := fun hresponds hcarries =>
    hcarries.imp fun value hvalue text hvalueText => by
      have hsize := hresponds.size_lt hvalue
      exact hvalueText.eq_unwrapResponse
  cases h with
  | leaf hnone => exact unwrapResponse_leaf hnone
  | @branch place kind parts texts hnone hparts =>
      have htexts : (parts.map fun part => unwrapResponse ⟨part⟩) = texts := by
        rw [← List.forall₂_eq_eq_eq, List.forall₂_map_left_iff, List.forall₂_iff_zip]
        refine ⟨hparts.length_eq, fun {part text} hmem => ?_⟩
        have hsize : part.size < (Node.branch place kind parts).size :=
          Node.size_lt_of_mem (List.of_mem_zip hmem).1
        exact (List.forall₂_zip hparts hmem).eq_unwrapResponse
      rw [unwrapResponse_branch hnone, htexts]
  | payload hresponds htype hcarries =>
      rw [unwrapResponse_of_responds hresponds (hpayload hresponds hcarries),
        if_pos (not_not.1 fun hfails => htype (hresponds.responseType?_eq_none_iff.2 hfails))]
  | failure hresponds htype hcarries =>
      rw [unwrapResponse_of_responds hresponds (hpayload hresponds hcarries),
        if_neg (hresponds.responseType?_eq_none_iff.1 htype)]
termination_by node.size

/-- Throwing a payload takes more than the payload. -/
theorem thrown_ne (payload : String) : thrown payload ≠ payload := by
  have hlonger {opening closing : String} (h : opening ++ payload ++ closing = payload) :
      closing = "" := by
    have hlength := congrArg String.length h
    rw [String.length_append, String.length_append] at hlength
    exact String.length_eq_zero_iff.1 (by omega)
  exact fun h => absurd (hlonger h) (by decide)

/-! ### All returns of a handler -/

/-- What is returned is a response, awaited or under wrappers, and in its place the rule writes that form of
its payload. -/
def ReplaysAs (form : String → String) (returned : Node) : Prop :=
  ∃ response args payload, returned.unwrapAwait? = some response ∧ Responds response args ∧
    WritesPayload args payload ∧ unwrapResponse ⟨response⟩ = form payload

/-- A return that is typed is the one in whose place the payload is written alone. -/
theorem replaysAs_id_iff : ReplaysAs id returned ↔ ∃ value, successValue? returned = some value := by
  constructor
  · rintro ⟨response, args, payload, hreturned, hresponds, hpayload, hwritten⟩
    rw [successValue?_of_responds hreturned hresponds]
    by_cases hsuccess : Succeeds args
    · exact ⟨_, if_pos hsuccess⟩
    · rw [unwrapResponse_of_responds hresponds hpayload, if_neg hsuccess] at hwritten
      exact absurd hwritten (thrown_ne payload)
  · rintro ⟨value, hvalue⟩
    unfold successValue? at hvalue
    split at hvalue
    · cases hvalue
    · rename_i response hreturned
      split at hvalue
      · cases hvalue
      · rename_i callee args hparts
        split at hvalue
        · rename_i hsuccess
          have hresponds : Responds response args := ⟨callee, hparts, hsuccess.1⟩
          refine ⟨response, args, _, hreturned, hresponds, hresponds.writesPayload, ?_⟩
          rw [unwrapResponse_of_responds hresponds hresponds.writesPayload, if_pos hsuccess.2, id]
        · cases hvalue

theorem successValue?_of_replaysAs_thrown (h : ReplaysAs thrown returned) :
    successValue? returned = none := by
  obtain ⟨response, args, payload, hreturned, hresponds, hpayload, hwritten⟩ := h
  rw [successValue?_of_responds hreturned hresponds]
  refine if_neg fun hsuccess => ?_
  rw [unwrapResponse_of_responds hresponds hpayload, if_pos hsuccess] at hwritten
  exact thrown_ne payload hwritten.symm

theorem not_replaysAs_id_iff : ¬ ReplaysAs id returned ↔ successValue? returned = none := by
  rw [replaysAs_id_iff, ← Option.isSome_iff_exists, Bool.not_eq_true, Option.isSome_eq_false_iff,
    Option.isNone_iff_eq_none]

/-- The declared return type, without the promise around it, says nothing but that a response is
returned; or there is none. -/
def SaysNoMore (declared : Option String) : Prop :=
  ∀ text, present (declared.map settledType) = some text → genericBase text ∈ responseClasses

theorem outputType_of_saysNoMore {declared : Option String} (h : SaysNoMore declared) (function : Node) :
    outputType scope function declared =
      match function.returnedExpressions.findSome? successValue? with
      | some value => typeOfValue scope value
      | none => .ok (((present (declared.map settledType)).map TypeExpr.named).getD .unknown) := by
  have hfilter : ((present (declared.map settledType)).filter fun text =>
      !responseClasses.contains (genericBase text)) = none := by
    rw [Option.filter_eq_none_iff]
    intro text htext
    simp [h text htext]
  unfold outputType
  simp only [hfilter, firstResponseType?_eq]
  cases function.returnedExpressions.findSome? successValue? with
  | none => rfl
  | some value =>
      dsimp only
      cases typeOfValue scope value <;> rfl

/-- Typing and replay agree on every response: what is no response is left alone, a response throws exactly
when it has no type, and otherwise it becomes its payload. So a handler whose declared return type says no
more has the type of the first return that is replayed as its payload, and if there is none, what it
declares, or an unknown type. A return that throws has no type at all. -/
theorem outputType_replayed (scope : Scope) (function : Node) {declared : Option String}
    (hdeclared : SaysNoMore declared) :
    (∀ node text, unwrapResponse ⟨node⟩ = text ↔ Unwraps scope node text) ∧
    (∀ returned, ReplaysAs thrown returned → responseType? scope returned = .ok none) ∧
    ((∃ before returned after, function.returnedExpressions = before ++ returned :: after ∧
        (∀ earlier ∈ before, ¬ ReplaysAs id earlier) ∧
        ReplaysAs id returned ∧ ¬ ReplaysAs thrown returned ∧
        (outputType scope function declared).map some = responseType? scope returned) ∨
      ((∀ returned ∈ function.returnedExpressions, ¬ ReplaysAs id returned) ∧
        outputType scope function declared =
          .ok (((present (declared.map settledType)).map TypeExpr.named).getD .unknown))) := by
  refine ⟨fun node text => ⟨?_, fun h => h.eq_unwrapResponse⟩, ?_, ?_⟩
  · rintro rfl
    exact unwraps_unwrapResponse scope node
  · intro returned hthrows
    exact responseType?_eq_none_iff.2 (successValue?_of_replaysAs_thrown hthrows)
  · rw [outputType_of_saysNoMore hdeclared]
    cases hfirst : function.returnedExpressions.findSome? successValue? with
    | none =>
        refine Or.inr ⟨fun returned hreturned => ?_, rfl⟩
        exact not_replaysAs_id_iff.2 (List.findSome?_eq_none_iff.1 hfirst returned hreturned)
    | some value =>
        obtain ⟨before, returned, after, hreturns, hvalue, hbefore⟩ :=
          List.findSome?_eq_some_iff.1 hfirst
        refine Or.inl ⟨before, returned, after, hreturns, ?_, replaysAs_id_iff.2 ⟨value, hvalue⟩, ?_, ?_⟩
        · exact fun earlier hearlier => not_replaysAs_id_iff.2 (hbefore earlier hearlier)
        · intro hthrows
          rw [successValue?_of_replaysAs_thrown hthrows] at hvalue
          cases hvalue
        · rw [responseType?_eq, hvalue]

/-- A handler that answers with a failure at first, and then with an awaited response in parentheses. -/
def guardedSource : String :=
  "export async function GET(req) \x7b\n  if (!req.ok) \x7b\n" ++
    "    return NextResponse.json(\x7b error: 'no' \x7d, \x7b status: 404 \x7d);\n  \x7d\n" ++
    "  return (await NextResponse.json(\x7b ok: true \x7d));\n\x7d\n"

/-- The only handler declares no type and returns twice; the first payload is a record. -/
def carriesRecord (program : Node) : Bool :=
  (discoverHandlers program).any fun site =>
    site.returnType.isNone && site.function.returnedExpressions.length = 2 &&
      (site.function.returnedExpressions.findSome? successValue?).any fun value? =>
        value?.any fun value => typeWithin (handlerScope program site) 3 [] value =
          .ok (.record [⟨"ok", .boolean, false⟩])

set_option maxRecDepth 1000000 in
/-- The second of the two responses gives the type, and is what is replayed. -/
theorem outputType_replayed_guarded : ∃ program site before returned after,
    Grammar.parse? guardedSource = some program ∧ site ∈ discoverHandlers program ∧
      SaysNoMore site.returnType ∧
      site.function.returnedExpressions = before ++ returned :: after ∧
      (before ++ returned :: after).length = 2 ∧ ReplaysAs id returned ∧
      responseType? (handlerScope program site) returned =
        .ok (some (.record [⟨"ok", .boolean, false⟩])) ∧
      outputType (handlerScope program site) site.function site.returnType =
        .ok (.record [⟨"ok", .boolean, false⟩]) := by
  have hcheck : (Grammar.parse? guardedSource).any carriesRecord = true := by decide +kernel
  obtain ⟨program, hparse, hprogram⟩ := (Option.any_eq_true _ _).1 hcheck
  obtain ⟨site, hsite, h⟩ := List.any_eq_true.1 hprogram
  simp only [Bool.and_eq_true, Option.isNone_iff_eq_none, decide_eq_true_eq] at h
  obtain ⟨⟨hnone, hlength⟩, h⟩ := h
  obtain ⟨value?, hfirst, h⟩ := (Option.any_eq_true _ _).1 h
  obtain ⟨value, rfl, h⟩ := (Option.any_eq_true _ _).1 h
  have hdeclared : SaysNoMore site.returnType := by
    rw [hnone]
    exact nofun
  have htype : outputType (handlerScope program site) site.function site.returnType =
      .ok (.record [⟨"ok", .boolean, false⟩]) := by
    rw [outputType_of_saysNoMore hdeclared, hfirst]
    exact typeOf_of_typeWithin (of_decide_eq_true h)
  obtain ⟨-, -, h⟩ := outputType_replayed (handlerScope program site) site.function hdeclared
  rcases h with ⟨before, returned, after, hreturns, -, hreplays, -, hsame⟩ | ⟨-, hunknown⟩
  · refine ⟨program, site, before, returned, after, hparse, hsite, hdeclared, hreturns, ?_, hreplays,
      ?_, htype⟩
    · rw [← hreturns, hlength]
    · rw [← hsame, htype]
      rfl
  · rw [htype, hnone] at hunknown
    cases hunknown

end Analysis

end RouteBinder
