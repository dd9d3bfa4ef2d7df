import RouteBinder.Body.Replay
import RouteBinder.Proofs.Source.Exchanged

/-!
# RouteBinder.Proofs.Body.RequestReads

**Reads of the request in a replayed body.** Two rules replace them: `replaceRequestAccessors` reads of
headers and cookies, `replacePayloadReads` reads of the payload and the declarations that only bind it.
Both put names in place of expressions and nothing in place of declarations, wherever they stand in the
body. So what they make of a body is a tree (`RequestReads.apply_rule`), in which all other nodes stand at
the positions where they stood.
-/

namespace RouteBinder.Body

open Source Node Analysis

variable {request : String} {node : Node}

/-- The reads of the request that one of the rules replaces. -/
inductive RequestReads where
  /-- Reads of headers and cookies. -/
  | accessors
  /-- Reads of the payload, which has a name in the body. -/
  | payload (name : String)
  deriving DecidableEq

namespace RequestReads

/-- A use of the name. -/
def nameNode (name : String) : Node := .leaf {} .identifier name

/-- What is left of a statement that is dropped. -/
def nothing : Node := .branch {} .emptyStatement []

/-- Does the declaration do nothing else but bind names to the payload? -/
def onlyBindsPayload (request : String) (declaration : Node) : Bool :=
  !declaration.declarators.isEmpty && declaration.declarators.all (bindsPayload request)

def rule (request : String) : RequestReads → Rule
  | .accessors => replaceRequestAccessors request
  | .payload name => replacePayloadReads request name

/-- What becomes of a read of headers or cookies. -/
def accessorOf? (request : String) (node : Node) : Option Node :=
  if node.kind == .memberExpression then
    if node.text == request ++ ".headers" then some (nameNode headersName)
    else if node.text == request ++ ".cookies" then some (nameNode cookiesName)
    else none
  else none

/-- The constructs that a read of the payload can be. -/
def readKinds : List Kind := [.awaitExpression, .callExpression, .memberExpression]

/-- What becomes of a read of the payload, or of a declaration that only binds it. -/
def payloadOf? (request name : String) (node : Node) : Option Node :=
  if node.isVariableDeclaration then
    if onlyBindsPayload request node then some nothing else none
  else if readKinds.contains node.kind && isPayloadRead request node then some (nameNode name)
  else none

/-- What the rule puts in place of nodes. -/
def exchange (request : String) : RequestReads → Exchange
  | .accessors => accessorOf? request
  | .payload name => payloadOf? request name

/-- The rule writes down what it puts in place of nodes. -/
theorem rule_eq (reads : RequestReads) (request : String) :
    reads.rule request = .ofSubstitution (reads.exchange request).substitution := by
  cases reads with
  | accessors =>
      refine congrArg Rule.ofSubstitution (funext fun node => funext fun write => ?_)
      show _ = (accessorOf? request node).map text
      rw [accessorOf?]
      split
      · split
        · rfl
        · split <;> rfl
      · rfl
  | payload name =>
      refine congrArg Rule.ofSubstitution (funext fun node => funext fun write => ?_)
      show _ = (payloadOf? request name node).map text
      rw [payloadOf?]
      split
      · rw [onlyBindsPayload]
        dsimp only
        split <;> rfl
      · have hread : ∀ kind ∈ readKinds, (if isPayloadRead request node then some name else none) =
            (if readKinds.contains kind && isPayloadRead request node then some (nameNode name)
              else none).map text := by
          intro kind hkind
          rw [List.contains_iff_mem.2 hkind, Bool.true_and]
          split <;> rfl
        split
        · rename_i hkind
          rw [hkind]
          exact hread _ (by decide)
        · rename_i hkind
          rw [hkind]
          exact hread _ (by decide)
        · rename_i hkind
          rw [hkind]
          exact hread _ (by decide)
        · rename_i hawait hcall hmember
          have hkind : readKinds.contains node.kind = false := by
            rw [List.contains_eq_mem, decide_eq_false_iff_not, readKinds]
            simpa using ⟨hawait, hcall, hmember⟩
          rw [hkind, Bool.false_and]
          rfl

/-- The body that the rule makes is the text of a tree. -/
theorem apply_rule [Recovery] {body : String} {fragment : Fragment}
    (hparse : Fragment.parse? body = some fragment) (reads : RequestReads) (request : String) :
    apply (reads.rule request) body =
      Text.tidy (Text.inside (fragment.block.exchanged (reads.exchange request)).text) := by
  rw [apply, Fragment.parse_of_parse? hparse, rule_eq, text_exchanged]
  rfl

/-- The constructs that the rules replace. -/
def replaceable : List Kind :=
  [.memberExpression, .awaitExpression, .callExpression, .lexicalDeclaration, .variableDeclaration]

theorem mem_replaceable_of_accessorOf? {new : Node} (h : accessorOf? request node = some new) :
    node.kind ∈ replaceable ∧ (new = nameNode headersName ∨ new = nameNode cookiesName) := by
  rw [accessorOf?] at h
  split at h
  · rename_i hkind
    refine ⟨beq_iff_eq.1 hkind ▸ List.mem_cons_self, ?_⟩
    split at h
    · exact Or.inl (Option.some.inj h).symm
    · split at h
      · exact Or.inr (Option.some.inj h).symm
      · cases h
  · cases h

theorem mem_replaceable_of_isVariableDeclaration (h : node.isVariableDeclaration = true) :
    node.kind ∈ replaceable := by
  rw [isVariableDeclaration, Bool.or_eq_true, beq_iff_eq, beq_iff_eq] at h
  rcases h with h | h <;> rw [h] <;> decide

theorem not_isVariableDeclaration_of_mem_readKinds (h : node.kind ∈ readKinds) :
    node.isVariableDeclaration = false := by
  simp only [readKinds, List.mem_cons, List.not_mem_nil, or_false] at h
  rcases h with h | h | h <;> rw [isVariableDeclaration, h] <;> rfl

/-- Reads of the payload become its name, and nothing else does. -/
theorem payloadOf?_eq_nameNode_iff : payloadOf? request name node = some (nameNode name) ↔
    node.kind ∈ readKinds ∧ isPayloadRead request node = true := by
  rw [payloadOf?]
  split
  · rename_i hdeclaration
    refine iff_of_false (fun h => ?_) fun h => ?_
    · split at h <;> cases h
    · rw [not_isVariableDeclaration_of_mem_readKinds h.1] at hdeclaration
      cases hdeclaration
  · rw [← List.contains_iff_mem, ← Bool.and_eq_true]
    split
    · exact iff_of_true rfl ‹_›
    · exact iff_of_false nofun ‹_›

theorem mem_replaceable_of_payloadOf? {new : Node} (h : payloadOf? request name node = some new) :
    node.kind ∈ replaceable ∧ (new = nothing ∨ new = nameNode name) := by
  rw [payloadOf?] at h
  split at h
  · rename_i hdeclaration
    refine ⟨mem_replaceable_of_isVariableDeclaration hdeclaration, ?_⟩
    split at h
    · exact Or.inl (Option.some.inj h).symm
    · cases h
  · split at h
    · rename_i hread
      have hkind := List.contains_iff_mem.1 (Bool.and_eq_true_iff.1 hread).1
      exact ⟨(by decide : ∀ kind ∈ readKinds, kind ∈ replaceable) _ hkind,
        Or.inr (Option.some.inj h).symm⟩
    · cases h

/-- What is replaced becomes a name, or nothing. -/
theorem of_exchange {reads : RequestReads} {new : Node} (h : reads.exchange request node = some new) :
    node.kind ∈ replaceable ∧ (new = nothing ∨ ∃ name, new = nameNode name) := by
  cases reads with
  | accessors =>
      obtain ⟨hkind, hnew⟩ := mem_replaceable_of_accessorOf? h
      exact ⟨hkind, Or.inr (hnew.elim (fun h => ⟨_, h⟩) fun h => ⟨_, h⟩)⟩
  | payload name =>
      obtain ⟨hkind, hnew⟩ := mem_replaceable_of_payloadOf? h
      exact ⟨hkind, hnew.imp_right fun h => ⟨_, h⟩⟩

theorem plain_exchange (reads : RequestReads) (request : String) : Plain (reads.exchange request) where
  children_eq h := by
    obtain ⟨-, rfl | ⟨name, rfl⟩⟩ := of_exchange h <;> rfl
  kind_ne h hkind := by
    obtain ⟨hreplaceable, hnew⟩ := of_exchange h
    rw [← hkind] at hreplaceable
    obtain rfl | ⟨name, rfl⟩ := hnew
    · exact absurd hreplaceable (by decide)
    · exact absurd (show Kind.identifier ∈ replaceable from hreplaceable) (by decide)

variable {reads : RequestReads}

theorem exchange_eq_none (h : node.kind ∉ replaceable) : reads.exchange request node = none :=
  Option.eq_none_iff_forall_ne_some.2 fun _ hnew => h (of_exchange hnew).1

/-- A view that puts the constructs which are replaced with those that replace them sees no change. -/
theorem kind_exchanged_congr (view : Kind → Bool) (hnew : view .emptyStatement = view .identifier)
    (hold : ∀ kind ∈ replaceable, view kind = view .identifier) (node : Node) :
    view (node.exchanged (reads.exchange request)).kind = view node.kind := by
  cases h : reads.exchange request node with
  | none => rw [kind_exchanged h]
  | some new =>
      obtain ⟨hreplaceable, hreplaced⟩ := of_exchange h
      rw [exchanged_of_replaced h, kind_placedAt, hold _ hreplaceable]
      rcases hreplaced with rfl | ⟨name, rfl⟩
      · exact hnew
      · rfl

/-! ### Views of what comes out -/

theorem namedChildren_exchanged (h : reads.exchange request node = none) :
    (node.exchanged (reads.exchange request)).namedChildren =
      node.namedChildren.map (exchanged (reads.exchange request)) := by
  have hview : (fun child : Node => child.isNamed && child.kind != .comment) ∘
      exchanged (reads.exchange request) = fun child => child.isNamed && child.kind != .comment :=
    funext fun child =>
      kind_exchanged_congr (fun kind => kind != .symbol && kind != .comment) rfl (by decide) child
  rw [namedChildren, namedChildren, children_exchanged h, List.filter_map, hview]

/-- The expression under wrappers is what becomes of the one that was under them. -/
theorem unwrap?_exchanged (node : Node) : (node.exchanged (reads.exchange request)).unwrap? =
    node.unwrap?.map (exchanged (reads.exchange request)) := by
  have hwrapper : (node.exchanged (reads.exchange request)).kind.isWrapper = node.kind.isWrapper :=
    kind_exchanged_congr Kind.isWrapper rfl (by decide) node
  rw [unwrap?_eq, unwrap?_eq, hwrapper]
  split
  · rename_i hkind
    have hkept : reads.exchange request node = none := exchange_eq_none fun hreplaceable =>
      Bool.false_ne_true (((by decide : ∀ kind ∈ replaceable, kind.isWrapper = false) _
        hreplaceable).symm.trans hkind)
    rw [firstNamed?, firstNamed?, namedChildren_exchanged hkept, List.head?_map]
    cases hfirst : node.namedChildren.head? with
    | none => rfl
    | some first =>
        have hsize : first.size < node.size := size_firstNamed?_lt hfirst
        exact unwrap?_exchanged first
  · rfl
termination_by node.size

end RequestReads

end RouteBinder.Body
