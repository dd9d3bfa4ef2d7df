import RouteBinder.Proofs.Body.RequestReads
import RouteBinder.Proofs.Emit.ReplayedNames

/-!
# RouteBinder.Proofs.Emit.ReboundRequests

**Requests of other functions.** A function in a body, or one that the body takes along from its module, may
have a parameter with the name of the handler's request. What it reads through this name is no read of the
handler's request. The rules for reads of the request look at the text of an expression only, so they leave
the reads in such a function alone exactly when there are none (`Server.rebound_stays_iff`). A helper that reads the payload of its own request loses the declaration of
it (`Server.rebound_declaration_dropped`).
-/

namespace RouteBinder.Emit.Server

open Source Node Body Text

variable {name body : String} {fragment : Fragment} {spot : Spot}

/-- The spot stands in a function which binds the name by a parameter of its own. -/
def Rebound (name : String) (spot : Spot) : Prop :=
  ∃ function ∈ spot.above, function.isFunction = true ∧ name ∈ parameterNames function

instance (name : String) (spot : Spot) : Decidable (Rebound name spot) :=
  decidable_of_iff (spot.above.any fun function =>
      function.isFunction && (parameterNames function).contains name) <| by
    simp only [List.any_eq_true, Bool.and_eq_true, List.contains_iff_mem, Rebound]

/-- What stands in a node of such a function stands in the function. -/
theorem Rebound.below (h : Rebound name spot) (part : Spot) :
    Rebound name { part with above := part.above ++ spot.above } :=
  h.imp fun _ hfunction => ⟨List.mem_append_right _ hfunction.1, hfunction.2⟩

/-- The node is a construct that is replaced, or has one in it. -/
def HasReplaced (exchange : Exchange) (node : Node) : Prop :=
  ∃ inner part, node.spotAt? inner = some part ∧ exchange part.node ≠ none

/-- The rules make a tree in which a node stays as it is exactly when nothing around it is replaced, and
nothing in it, whatever the functions around it bind. So all reads of the request, and all declarations with
such reads, that stand in functions which bind the request again stay exactly when there are none. -/
theorem rebound_stays_iff [Recovery] (hparse : Fragment.parse? body = some fragment)
    (reads : RequestReads) (request : String) :
    apply (reads.rule request) body =
        tidy (inside (fragment.block.exchanged (reads.exchange request)).text) ∧
      (∀ position spot, fragment.block.spotAt? position = some spot →
        spot.Exposed (reads.exchange request) →
          (fragment.block.exchanged (reads.exchange request)).spotAt? position =
            some (spot.exchanged (reads.exchange request))) ∧
      (∀ position spot, fragment.block.spotAt? position = some spot →
        (StaysAt (reads.exchange request) fragment.block position ↔
          spot.Exposed (reads.exchange request) ∧ ¬ HasReplaced (reads.exchange request) spot.node)) ∧
      ((∀ position spot, fragment.block.spotAt? position = some spot → Rebound request spot →
          HasReplaced (reads.exchange request) spot.node →
            StaysAt (reads.exchange request) fragment.block position) ↔
        ∀ position spot, fragment.block.spotAt? position = some spot → Rebound request spot →
          reads.exchange request spot.node = none) := by
  have hstays : ∀ position spot, fragment.block.spotAt? position = some spot →
      (StaysAt (reads.exchange request) fragment.block position ↔
        spot.Exposed (reads.exchange request) ∧ ¬ HasReplaced (reads.exchange request) spot.node) := by
    intro position spot hspot
    rw [(reads.plain_exchange request).staysAt_iff hspot, HasReplaced]
    push Not
    rfl
  refine ⟨reads.apply_rule hparse request, fun position spot => spotAt?_exchanged, hstays, ?_⟩
  constructor
  · intro hall position spot hspot hrebound
    by_contra hreplaced
    have hread : HasReplaced (reads.exchange request) spot.node := ⟨[], _, rfl, hreplaced⟩
    exact ((hstays position spot hspot).1 (hall position spot hspot hrebound hread)).2 hread
  · rintro hnone position spot hspot hrebound ⟨inner, part, hpart, hreplaced⟩
    exact absurd (hnone _ _ (spotAt?_below hspot hpart) (hrebound.below part)) hreplaced

/-! ### Functions that read their own requests -/

/-- A body that reads the headers of its request, and has a function with a parameter of the same name. -/
def mappedBody : String :=
  "const agent = req.headers.get('a');\nreturn items.map((req) => [agent, req.id]);"

/-- Nothing is replaced in the function, nor around it. -/
def sparesRebound (request : String) (reads : RequestReads) (fragment : Fragment) : Bool :=
  (fragment.block.spots.any fun spot => decide (Rebound request spot)) &&
    fragment.block.spots.all fun spot => decide (Rebound request spot →
      spot.Exposed (reads.exchange request) ∧ reads.exchange request spot.node = none)

set_option maxRecDepth 1000000 in
theorem sparesRebound_mappedBody :
    (Fragment.parse? mappedBody).any (sparesRebound "req" .accessors) = true := by
  decide +kernel

attribute [local instance] Recovery.verbatim

/-- The function stays as it is, while the read outside of it is replaced. -/
theorem rebound_stays_mappedBody : ∃ fragment, Fragment.parse? mappedBody = some fragment ∧
    (∃ spot ∈ fragment.block.spots, Rebound "req" spot) ∧
    ∀ position spot, fragment.block.spotAt? position = some spot → Rebound "req" spot →
      StaysAt (RequestReads.accessors.exchange "req") fragment.block position := by
  obtain ⟨fragment, hparse, h⟩ := (Option.any_eq_true _ _).1 sparesRebound_mappedBody
  simp only [sparesRebound, Bool.and_eq_true, List.any_eq_true, List.all_eq_true,
    decide_eq_true_eq] at h
  refine ⟨fragment, hparse, h.1, fun position spot hspot hrebound => ?_⟩
  have hspared := h.2 spot (mem_spots_iff.2 ⟨position, hspot⟩) hrebound
  refine ((rebound_stays_iff hparse .accessors "req").2.2.1 position spot hspot).2 ⟨hspared.1, ?_⟩
  rintro ⟨inner, part, hpart, hreplaced⟩
  have hat := mem_spots_iff.2 ⟨position ++ inner, spotAt?_below hspot hpart⟩
  exact hreplaced (h.2 _ hat (hrebound.below part)).2

/-- A body with a helper from its module, which has a request of its own. -/
def helperBody : String :=
  "async function load(req) \x7b\n  const data = await req.json();\n  return data;\n\x7d\n" ++
    "return load(other);"

/-- Does the rule replace a declaration of the names in a function that binds the request again? -/
def replacesRebound (names : List String) (request : String) (reads : RequestReads)
    (fragment : Fragment) : Bool :=
  fragment.block.spots.any fun spot => decide (Rebound request spot) &&
    spot.node.declarationNames == names && (reads.exchange request spot.node).isSome

set_option maxRecDepth 1000000 in
theorem replacesRebound_helperBody :
    (Fragment.parse? helperBody).any (replacesRebound ["data"] "req" (.payload "body")) = true := by
  decide +kernel

/-- The helper reads the payload of its own request, and the declaration of it is dropped. -/
theorem rebound_declaration_dropped : ∃ fragment position spot,
    Fragment.parse? helperBody = some fragment ∧ fragment.block.spotAt? position = some spot ∧
      Rebound "req" spot ∧ spot.node.declarationNames = ["data"] ∧
      ¬ StaysAt ((RequestReads.payload "body").exchange "req") fragment.block position := by
  obtain ⟨fragment, hparse, h⟩ := (Option.any_eq_true _ _).1 replacesRebound_helperBody
  simp only [replacesRebound, List.any_eq_true, Bool.and_eq_true, decide_eq_true_eq, beq_iff_eq] at h
  obtain ⟨spot, hspot, ⟨hrebound, hnames⟩, hreplaced⟩ := h
  obtain ⟨position, hposition⟩ := mem_spots_iff.1 hspot
  refine ⟨fragment, position, spot, hparse, hposition, hrebound, hnames, fun hstays => ?_⟩
  have hkept := (RequestReads.plain_exchange _ _).exposed_of_staysAt hposition hstays
  rw [hkept.2] at hreplaced
  cases hreplaced

end RouteBinder.Emit.Server
