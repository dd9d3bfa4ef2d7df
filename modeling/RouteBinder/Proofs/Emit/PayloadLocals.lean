import RouteBinder.Proofs.Body.DroppedReads
import RouteBinder.Proofs.Body.RequestReads
import RouteBinder.Proofs.Emit.ReplayedLiterals

/-!
# RouteBinder.Proofs.Emit.PayloadLocals

**Variables for the payload.** A handler may bind its payload to several variables. The member for the server
binds the first of them by its options. Declarations that bind nothing but the payload are dropped from the
body, whatever the variables are called, and in other declarations a read of the payload becomes the name of
the first variable.

So a variable still denotes the payload when it is the first one and all its declarations are dropped, or
when it is another one and some declaration of it stays, with other declarators
(`Server.keepsPayload_iff`). A second variable in a declaration of its own is lost
(`Server.payload_variable_lost`).
-/

namespace RouteBinder.Body

open Source Node Analysis

variable {request payload name source : String} {node inner value declarator block : Node}
  {reads : RequestReads}

/-! ### Reads of the payload and names -/

/-- Is the node a use of the variable? -/
def isName (name : String) : Node → Bool
  | .leaf _ kind text => kind == .identifier && text == name
  | .branch .. => false

theorem kind_of_isName (h : isName name node = true) : node.kind = .identifier := by
  cases node with
  | leaf => exact beq_iff_eq.1 (Bool.and_eq_true_iff.1 h).1
  | branch => cases h

/-- Is the expression the variable, under its wrappers? -/
def isVariable (name : String) (value : Node) : Bool := value.unwrap?.any (isName name)

/-- A use of a name comes from one, or from what is replaced by it. -/
theorem isName_exchanged (node : Node) :
    isName name (node.exchanged (reads.exchange request)) = true ↔
      isName name node = true ∨ reads.exchange request node = some (RequestReads.nameNode name) := by
  cases h : reads.exchange request node with
  | none =>
      rw [or_iff_left (Option.some_ne_none _).symm]
      cases node with
      | leaf => rw [exchanged, h]
      | branch =>
          rw [exchanged, h]
          rfl
  | some new =>
      obtain ⟨hreplaceable, hnew⟩ := RequestReads.of_exchange h
      have hnode : ¬ isName name node = true := fun hname =>
        absurd (kind_of_isName hname ▸ hreplaceable) (by decide)
      rw [exchanged_of_replaced h, or_iff_right hnode]
      rcases hnew with rfl | ⟨found, rfl⟩
      · exact iff_of_false Bool.false_ne_true fun h => by cases Option.some.inj h
      · rw [Option.some.injEq, RequestReads.nameNode, RequestReads.nameNode, Node.leaf.injEq,
          eq_self_iff_true, true_and, eq_self_iff_true, true_and]
        exact beq_iff_eq

theorem unwrapAwait?_of_unwrap? (h : value.unwrap? = some inner) :
    value.unwrapAwait? = inner.unwrapAwait? := by
  rw [unwrapAwait?_eq, unwrapAwait?_eq, h, unwrap?_of_unwrap? h]

theorem isPayloadRead_of_unwrap? (h : value.unwrap? = some inner) :
    isPayloadRead request value = isPayloadRead request inner := by
  rw [isPayloadRead, isPayloadRead, unwrapAwait?_of_unwrap? h]

/-- A read of the payload that has no wrappers is awaited, a call or a property. -/
theorem mem_readKinds_of_isPayloadRead (hunwrap : inner.unwrap? = some inner)
    (h : isPayloadRead request inner = true) : inner.kind ∈ RequestReads.readKinds := by
  rw [isPayloadRead, unwrapAwait?_eq, hunwrap, Option.bind_some] at h
  by_cases hawait : inner.kind = .awaitExpression
  · rw [hawait]
    decide
  · rw [if_neg (mt beq_iff_eq.1 hawait)] at h
    dsimp only at h
    split at h
    · rename_i hkind
      rw [hkind]
      decide
    · rename_i hkind
      rw [hkind]
      decide
    · cases h

/-- The value of what comes out is the payload when the old value read it, or was it already. -/
theorem isVariable_exchanged (request payload : String) (value : Node) :
    isVariable payload (value.exchanged ((RequestReads.payload payload).exchange request)) =
      (isPayloadRead request value || isVariable payload value) := by
  rw [isVariable, isVariable, RequestReads.unwrap?_exchanged, Option.any_map]
  cases hunwrap : value.unwrap? with
  | none =>
      rw [isPayloadRead, unwrapAwait?_eq, hunwrap]
      rfl
  | some inner =>
      have hinner := unwrap?_of_unwrap? hunwrap
      rw [isPayloadRead_of_unwrap? hunwrap, Bool.eq_iff_iff, Bool.or_eq_true, Option.any_some,
        Option.any_some, isName_exchanged, or_comm]
      refine or_congr_left (RequestReads.payloadOf?_eq_nameNode_iff.trans ?_)
      exact and_iff_right_of_imp (mem_readKinds_of_isPayloadRead hinner)

/-! ### Variables that keep denoting the payload -/

/-- Does the declarator bind the name to a value that is the payload? -/
def holdsAs (isPayload : Node → Bool) (name : String) (declarator : Node) : Bool :=
  declarator.kind == .variableDeclarator && (declarator.field? .name).any (isName name) &&
    (declarator.field? .value).any isPayload

/-- In a body in which the payload is called `payload`, the name denotes the payload: it is that name, and
not declared again, or it is another one, and declared as that name. -/
def KeepsPayload (block : Node) (payload name : String) : Prop :=
  (name = payload ∧ block.declaresVariable name = false) ∨
    (name ≠ payload ∧ ∃ declarator ∈ block.preorder, holdsAs (isVariable payload) name declarator = true)

instance (block : Node) (payload name : String) : Decidable (KeepsPayload block payload name) :=
  inferInstanceAs (Decidable (_ ∨ _))

theorem kind_exchanged_eq_declarator_iff (reads : RequestReads) (request : String) (node : Node) :
    (node.exchanged (reads.exchange request)).kind = .variableDeclarator ↔
      node.kind = .variableDeclarator := by
  rw [← beq_iff_eq, ← beq_iff_eq (a := node.kind)]
  rw [RequestReads.kind_exchanged_congr (· == .variableDeclarator) rfl (by decide) node]

theorem exchange_declarator (reads : RequestReads) (request : String)
    (h : node.kind = .variableDeclarator) :
    reads.exchange request node = none :=
  RequestReads.exchange_eq_none (by rw [h]; decide)

/-- A declarator comes out as one that binds another name to the payload when it bound the name to a read of
the payload. -/
theorem holdsAs_exchanged (hname : name ≠ payload) (declarator : Node) :
    holdsAs (isVariable payload) name
        (declarator.exchanged ((RequestReads.payload payload).exchange request)) =
      holdsAs (fun value => isPayloadRead request value || isVariable payload value) name declarator := by
  by_cases hkind : declarator.kind = .variableDeclarator
  · have hkept := exchange_declarator (.payload payload) request hkind
    have hpattern : ∀ pattern,
        isName name (pattern.exchanged ((RequestReads.payload payload).exchange request)) =
          isName name pattern := by
      intro pattern
      rw [Bool.eq_iff_iff, isName_exchanged]
      refine or_iff_left fun hreplaced => ?_
      rcases (RequestReads.mem_replaceable_of_payloadOf? hreplaced).2 with h | h
      · cases h
      · cases h
        exact hname rfl
    rw [holdsAs, holdsAs, kind_exchanged hkept, field?_exchanged hkept, field?_exchanged hkept,
      Option.any_map, Option.any_map]
    simp only [hpattern, isVariable_exchanged]
  · have hkind' := mt (kind_exchanged_eq_declarator_iff (.payload payload) request declarator).1 hkind
    rw [holdsAs, holdsAs, beq_eq_false_iff_ne.2 hkind, beq_eq_false_iff_ne.2 hkind', Bool.false_and,
      Bool.false_and, Bool.false_and, Bool.false_and]

/-- The declarators of a body around which nothing is replaced. -/
def remaining (exchange : Exchange) (block : Node) : List Node :=
  ((block.spots.filter fun spot => decide (spot.Exposed exchange)).map (·.node)).filter
    (·.kind == .variableDeclarator)

theorem mem_remaining {exchange : Exchange} : declarator ∈ remaining exchange block ↔
    (∃ position spot, block.spotAt? position = some spot ∧ spot.Exposed exchange ∧
      spot.node = declarator) ∧ declarator.kind = .variableDeclarator := by
  simp only [remaining, List.mem_filter, List.mem_map, mem_spots_iff, decide_eq_true_eq, beq_iff_eq]
  refine and_congr_left fun _ => ?_
  constructor
  · rintro ⟨spot, ⟨⟨position, hposition⟩, hexposed⟩, hnode⟩
    exact ⟨position, spot, hposition, hexposed, hnode⟩
  · rintro ⟨position, spot, hposition, hexposed, hnode⟩
    exact ⟨spot, ⟨⟨position, hposition⟩, hexposed⟩, hnode⟩

/-- The declarators of what comes out are what becomes of those that remain. -/
theorem exists_declarator_exchanged_iff {p : Node → Prop} :
    (∃ declarator ∈ (block.exchanged (reads.exchange request)).preorder,
        declarator.kind = .variableDeclarator ∧ p declarator) ↔
      ∃ declarator ∈ remaining (reads.exchange request) block,
        p (declarator.exchanged (reads.exchange request)) := by
  constructor
  · rintro ⟨declarator, hmem, hkind, hp⟩
    obtain ⟨position, spot, hspot, hexposed, rfl⟩ :=
      (RequestReads.plain_exchange reads request).mem_preorder_exchanged_iff.1 hmem
    exact ⟨spot.node, mem_remaining.2 ⟨⟨position, spot, hspot, hexposed, rfl⟩,
      (kind_exchanged_eq_declarator_iff _ _ _).1 hkind⟩, hp⟩
  · rintro ⟨declarator, hmem, hp⟩
    obtain ⟨⟨position, spot, hspot, hexposed, rfl⟩, hkind⟩ := mem_remaining.1 hmem
    exact ⟨_, (RequestReads.plain_exchange reads request).mem_preorder_exchanged_iff.2
      ⟨position, spot, hspot, hexposed, rfl⟩, (kind_exchanged_eq_declarator_iff _ _ _).2 hkind, hp⟩

/-- Which variables denote the payload in the body that comes out. -/
theorem keepsPayload_exchanged_iff (block : Node) (request payload name : String) :
    KeepsPayload (block.exchanged ((RequestReads.payload payload).exchange request)) payload name ↔
      (name = payload ∧
        ∀ declarator ∈ remaining ((RequestReads.payload payload).exchange request) block,
          name ∉ (declarator.exchanged ((RequestReads.payload payload).exchange request)).declaratorNames) ∨
      (name ≠ payload ∧
        ∃ declarator ∈ remaining ((RequestReads.payload payload).exchange request) block,
          holdsAs (fun value => isPayloadRead request value || isVariable payload value) name
            declarator = true) := by
  refine or_congr (and_congr_right fun _ => ?_) (and_congr_right fun hname => ?_)
  · rw [declaresVariable, ← Bool.not_eq_true, List.any_eq_true]
    simp only [Bool.and_eq_true, beq_iff_eq, List.contains_iff_mem]
    rw [exists_declarator_exchanged_iff]
    push Not
    rfl
  · have hkind : ∀ declarator, holdsAs (isVariable payload) name declarator = true ↔
        declarator.kind = .variableDeclarator ∧
          holdsAs (isVariable payload) name declarator = true := by
      intro declarator
      refine (and_iff_right_of_imp fun h => ?_).symm
      rw [holdsAs, Bool.and_eq_true, Bool.and_eq_true, beq_iff_eq] at h
      exact h.1.1
    rw [exists_congr fun declarator => and_congr_right fun _ => hkind declarator,
      exists_declarator_exchanged_iff]
    simp only [holdsAs_exchanged hname]

end RouteBinder.Body

namespace RouteBinder.Emit.Server

open Source Node Analysis Body Route Text

variable {handler : Handler} {directories : List String} {program : Node} {module : Scope}
  {site : HandlerSite} {fragment : Fragment} {name : String}

/-- The variables that a function binds to the payload of its request. -/
def payloadHolders (function : Node) : List String :=
  (Payload.ofFunction function (requestName? function)).holders

/-- The rules in front of the one for the payload. -/
def rulesBeforePayload (handler : Handler) (directories : List String) : List Rule :=
  let params := Address.params directories
  (if params.isEmpty then []
    else (present handler.routeParams).toList.map (substituteRouteParams · params)) ++
    [replaceRequestAccessors handler.request]

/-- The body that the rule for the payload is applied to. -/
def payloadBody [Recovery] (handler : Handler) (directories : List String) : String :=
  applyAll (rulesBeforePayload handler directories) handler.body

/-- What the rule for the payload puts in place of nodes. -/
def payloadExchange (handler : Handler) : Exchange :=
  (RequestReads.payload (payloadName handler)).exchange handler.request

theorem adaptedBody_of_usesBody [Recovery] (h : handler.usesBody = true) :
    adaptedBody handler directories =
    apply (replacePayloadReads handler.request (payloadName handler))
      (payloadBody handler directories) := by
  have hrules : commonRules handler directories = rulesBeforePayload handler directories ++
      [replacePayloadReads handler.request (payloadName handler)] := by
    rw [commonRules, rulesBeforePayload, if_pos h, List.append_assoc]
    rfl
  rw [adaptedBody, hrules, applyAll, List.foldl_append]
  rfl

/-- A handler with variables for the payload takes one, and calls it like the first of them. -/
theorem payloadHolders_eq_cons [Recovery] (h : describe program module site = .ok handler)
    (hverb : handler.isGet = false) (hname : name ∈ payloadHolders site.function)
    (hempty : "" ∉ payloadHolders site.function) :
    handler.usesBody = true ∧ ∃ rest, payloadHolders site.function = payloadName handler :: rest := by
  obtain ⟨first, rest, hholders⟩ := List.exists_cons_of_ne_nil (List.ne_nil_of_mem hname)
  have hvariable : handler.payloadVariable = some first := by
    rw [(described_of_describe h).payloadVariable]
    exact congrArg List.head? hholders
  have hfirst : first.isEmpty = false := by
    rw [hholders] at hempty
    rw [← Bool.not_eq_true, String.isEmpty_iff]
    exact fun hfirst => hempty (hfirst ▸ List.mem_cons_self)
  constructor
  · rw [Handler.usesBody, hverb, Handler.consumesPayload, hvariable, Option.any_some, hfirst]
    simp
  · rw [payloadName, hvariable, present, Option.filter_some, hfirst, hholders]
    exact ⟨rest, rfl⟩

/-- A member binds the payload to the first variable that its handler has for it. In the body, the name of it
stands for each read of the payload, and declarations that bind nothing else are dropped. Then a variable
denotes the payload when it is the first one and no declaration of it is left, or when it is another one and
a declarator of it is left that took the payload. -/
theorem keepsPayload_iff [Recovery] (h : describe program module site = .ok handler)
    (hverb : handler.isGet = false) (hmarker : handler.marker ≠ .redirect)
    (hname : name ∈ payloadHolders site.function) (hempty : "" ∉ payloadHolders site.function)
    (hparse : Fragment.parse? (payloadBody handler directories) = some fragment) :
    (∃ rest, payloadHolders site.function = payloadName handler :: rest) ∧
      (∃ usesQuery query rest lines, member handler directories =
          wrapped (parametersText handler
              ((boundOptions handler usesQuery query).map fun (key, name) => optionPattern key name) rest)
            (withPreamble lines (replayedBody handler directories)) ∧
        ("body", payloadName handler) ∈ boundOptions handler usesQuery query) ∧
      (handler.marker ≠ .paginated → replayedBody handler directories =
        tidy (inside (fragment.block.exchanged (payloadExchange handler)).text)) ∧
      (handler.marker = .paginated → Relation.ReflTransGen (DropsReads handler.request)
        (boundPage handler (tidy (inside (fragment.block.exchanged (payloadExchange handler)).text)))
        (replayedBody handler directories)) ∧
      (KeepsPayload (fragment.block.exchanged (payloadExchange handler)) (payloadName handler) name ↔
        (name = payloadName handler ∧ ∀ declarator ∈ remaining (payloadExchange handler) fragment.block,
          name ∉ (declarator.exchanged (payloadExchange handler)).declaratorNames) ∨
        (name ≠ payloadName handler ∧ ∃ declarator ∈ remaining (payloadExchange handler) fragment.block,
          holdsAs (fun value => isPayloadRead handler.request value ||
            isVariable (payloadName handler) value) name declarator = true)) := by
  obtain ⟨huses, hholders⟩ := payloadHolders_eq_cons h hverb hname hempty
  have hadapted : adaptedBody handler directories =
      tidy (inside (fragment.block.exchanged (payloadExchange handler)).text) :=
    (adaptedBody_of_usesBody huses).trans
      ((RequestReads.payload (payloadName handler)).apply_rule hparse handler.request)
  refine ⟨hholders, ?_, fun hgeneral => ?_, fun hpaginated => ?_, ?_⟩
  · obtain ⟨rest, lines, hmember, -⟩ := @member_eq_wrapped handler directories _ hmarker
    refine ⟨_, _, rest, lines, hmember, ?_⟩
    rw [boundOptions, if_pos huses]
    exact List.mem_append_left _ (List.mem_singleton_self _)
  · rw [replayedBody_of_not_paginated hgeneral]
    exact hadapted
  · rw [replayedBody, hpaginated, ← hadapted]
    exact reflTransGen_applyUntilStable _
  · exact keepsPayload_exchanged_iff fragment.block handler.request (payloadName handler) name

/-! ### A handler with two variables -/

/-- What a module needs of no declarations is retained when no rule changes it. -/
theorem retainedBody_eq_self [Recovery] {text : String} (hcandidates : candidates program verbs = [])
    (hrules : ∀ rule ∈ extractionRules, apply rule text = text) : retainedBody program text = text := by
  have hfree : ∀ body, freeDeclarations program body verbs = [] := by
    intro body
    rw [freeDeclarations, dependencies, hcandidates]
    rfl
  have hbody : (if text.isEmpty then "" else applyAll extractionRules text) = text := by
    split
    · rename_i hempty
      exact (String.isEmpty_iff.1 hempty).symm
    · exact applyAll_eq_self hrules
  rw [retainedBody, hbody, hfree]
  rfl

/-- A handler that binds its payload twice. -/
def twoHoldersSource : String :=
  "export function POST(r): T \x7b\n  const a = r.body;\n  const b = r.body;\n  return b;\n\x7d\n"

/-- The body of this handler. -/
def twoHoldersBody : String := "const a = r.body;\nconst b = r.body;\nreturn b;"

/-- The handler as far as its payload goes. -/
def bindsTwice (site : HandlerSite) (handler : Handler) : Bool :=
  !handler.isGet && handler.marker == .plain && handler.request == "r" &&
    payloadHolders site.function == ["a", "b"] && bodyText site.function == twoHoldersBody

attribute [local instance] Recovery.verbatim

set_option maxRecDepth 1000000 in
theorem bindsTwice_twoHoldersSource : (Grammar.parse? twoHoldersSource).any (fun program =>
    (candidates program verbs).isEmpty && anyHandler bindsTwice program) = true := by
  decide +kernel

/-- No rule in front of the one for the payload changes the body; in what that rule makes of it, the first
variable denotes the payload, and the second one is still needed, and does not. -/
def losesSecond (fragment : Fragment) : Bool :=
  ((extractionRules ++ [replaceRequestAccessors "r"]).all fun rule =>
      tidy (inside (rule fragment)) == twoHoldersBody) &&
    decide (KeepsPayload (fragment.block.exchanged ((RequestReads.payload "a").exchange "r")) "a" "a") &&
    (Fragment.parse? (tidy (inside (replacePayloadReads "r" "a" fragment)))).any fun after =>
      after.references.contains "b" && !decide (KeepsPayload after.block "a" "b")

set_option maxRecDepth 1000000 in
theorem losesSecond_twoHoldersBody : (Fragment.parse? twoHoldersBody).any losesSecond = true := by
  decide +kernel

theorem exists_twoHolders : ∃ program site handler fragment after,
    Grammar.parse? twoHoldersSource = some program ∧ site ∈ discoverHandlers program ∧
      describe program (.ofModule program) site = .ok handler ∧ handler.isGet = false ∧
      handler.marker ≠ .redirect ∧ payloadHolders site.function = ["a", "b"] ∧
      Fragment.parse? (payloadBody handler []) = some fragment ∧
      KeepsPayload (fragment.block.exchanged (payloadExchange handler)) (payloadName handler) "a" ∧
      Fragment.parse? (replayedBody handler []) = some after ∧ "b" ∈ after.references ∧
      ¬ KeepsPayload after.block (payloadName handler) "b" := by
  obtain ⟨program, hprogram, h⟩ := (Option.any_eq_true _ _).1 bindsTwice_twoHoldersSource
  obtain ⟨fragment, hfragment, hlost⟩ := (Option.any_eq_true _ _).1 losesSecond_twoHoldersBody
  rw [Bool.and_eq_true, List.isEmpty_iff] at h
  have hany : (Grammar.parse? twoHoldersSource).any (anyHandler bindsTwice) = true := by
    rw [hprogram]
    exact h.2
  obtain ⟨program', site, handler, hprogram', hsite, hd, hbinds⟩ := exists_of_anyHandler hany
  obtain rfl := Option.some.inj (hprogram.symm.trans hprogram')
  simp only [bindsTwice, Bool.and_eq_true, Bool.not_eq_true', beq_iff_eq] at hbinds
  obtain ⟨⟨⟨⟨hverb, hmarker⟩, hrequest⟩, hholders⟩, htext⟩ := hbinds
  simp only [losesSecond, Bool.and_eq_true, List.all_eq_true, beq_iff_eq, decide_eq_true_eq,
    Option.any_eq_true, List.contains_iff_mem, Bool.not_eq_true', decide_eq_false_iff_not] at hlost
  obtain ⟨⟨hrules, hkeeps⟩, after, hafter, hrefers, hloses⟩ := hlost
  have happly : ∀ rule, apply rule twoHoldersBody = tidy (inside (rule fragment)) := by
    intro rule
    rw [apply, Fragment.parse_of_parse? hfragment]
  have hmem : "a" ∈ payloadHolders site.function := by
    rw [hholders]
    exact List.mem_cons_self
  obtain ⟨huses, rest, hfirst⟩ := payloadHolders_eq_cons hd hverb hmem (by rw [hholders]; decide)
  have hpayload : payloadName handler = "a" := by
    rw [hholders] at hfirst
    exact (List.cons.inj hfirst).1.symm
  have hbody : payloadBody handler [] = twoHoldersBody := by
    rw [payloadBody, (described_of_describe hd).body, htext, retainedBody_eq_self h.1]
    · refine applyAll_eq_self fun rule hrule => ?_
      obtain rfl := List.mem_singleton.1 hrule
      rw [happly, hrequest]
      exact hrules _ (List.mem_append_right _ (List.mem_singleton_self _))
    · exact fun rule hrule => (happly rule).trans (hrules rule (List.mem_append_left _ hrule))
  have hreplayed : replayedBody handler [] =
      tidy (inside (replacePayloadReads "r" "a" fragment)) := by
    rw [replayedBody_of_not_paginated (by rw [hmarker]; decide), ← happly]
    exact (adaptedBody_of_usesBody huses).trans (by rw [hbody, hrequest, hpayload])
  refine ⟨program, site, handler, fragment, after, hprogram, hsite, hd, hverb,
    by rw [hmarker]; decide, hholders, by rw [hbody, hfragment], ?_, by rw [hreplayed, hafter],
    hrefers, ?_⟩
  · rw [payloadExchange, hpayload, hrequest]
    exact hkeeps
  · rw [hpayload]
    exact hloses

/-- The body of the member needs the second variable, and nothing gives it the payload. -/
theorem payload_variable_lost : ∃ program site handler after,
    Grammar.parse? twoHoldersSource = some program ∧ site ∈ discoverHandlers program ∧
      describe program (.ofModule program) site = .ok handler ∧ handler.isGet = false ∧
      handler.marker ≠ .redirect ∧ "b" ∈ payloadHolders site.function ∧
      Fragment.parse? (replayedBody handler []) = some after ∧ "b" ∈ after.references ∧
      ¬ KeepsPayload after.block (payloadName handler) "b" := by
  obtain ⟨program, site, handler, -, after, hprogram, hsite, hd, hverb, hmarker, hholders, -, -, hafter,
    hrefers, hloses⟩ := exists_twoHolders
  refine ⟨program, site, handler, after, hprogram, hsite, hd, hverb, hmarker, ?_, hafter, hrefers, hloses⟩
  rw [hholders]
  exact List.mem_cons_of_mem _ (List.mem_singleton_self _)

/-- No declaration of the first variable is left. -/
theorem first_variable_kept : ∃ program site handler fragment,
    describe program (.ofModule program) site = .ok handler ∧ handler.isGet = false ∧
      handler.marker ≠ .redirect ∧ "a" ∈ payloadHolders site.function ∧
      "" ∉ payloadHolders site.function ∧
      Fragment.parse? (payloadBody handler []) = some fragment ∧ "a" = payloadName handler ∧
      ∀ declarator ∈ remaining (payloadExchange handler) fragment.block,
        "a" ∉ (declarator.exchanged (payloadExchange handler)).declaratorNames := by
  obtain ⟨program, site, handler, fragment, -, -, -, hd, hverb, hmarker, hholders, hparse, hkeeps, -⟩ :=
    exists_twoHolders
  have hfirst : "a" ∈ payloadHolders site.function := by
    rw [hholders]
    exact List.mem_cons_self
  have hempty : "" ∉ payloadHolders site.function := by
    rw [hholders]
    decide
  obtain ⟨⟨rest, hpayload⟩, -, -, -, hiff⟩ := keepsPayload_iff hd hverb hmarker hfirst hempty hparse
  have hname : "a" = payloadName handler := by
    rw [hholders] at hpayload
    exact (List.cons.inj hpayload).1
  obtain ⟨-, hnone⟩ := (hiff.1 hkeeps).resolve_right fun h => h.1 hname
  exact ⟨program, site, handler, fragment, hd, hverb, hmarker, hfirst, hempty, hparse, hname, hnone⟩

end RouteBinder.Emit.Server
