import Mathlib.Logic.Relation
import RouteBinder.Source.Shape

/-!
# RouteBinder.Proofs.Source.Inside

**Nodes inside other nodes.** What the views of a node find (its fields, arguments, members and returned
expressions) stands inside the node. So it is smaller, and whatever stands inside the one stands inside the
other.
-/

namespace RouteBinder.Source.Node

/-- The node is a child of the other one, or a child of a child, and so on. -/
def Inside (part node : Node) : Prop :=
  Relation.TransGen (fun child parent => child ∈ parent.children) part node

/-- The node is the other one or stands inside it. -/
def AtOrInside (part node : Node) : Prop :=
  Relation.ReflTransGen (fun child parent => child ∈ parent.children) part node

variable {part node inner : Node}

theorem AtOrInside.refl (node : Node) : node.AtOrInside node := Relation.ReflTransGen.refl

theorem Inside.of_mem (h : part ∈ node.children) : part.Inside node := Relation.TransGen.single h

theorem Inside.atOrInside (h : part.Inside node) : part.AtOrInside node :=
  Relation.TransGen.to_reflTransGen h

theorem Inside.trans (h : part.Inside inner) (h' : inner.Inside node) : part.Inside node :=
  Relation.TransGen.trans h h'

theorem AtOrInside.trans (h : part.AtOrInside inner) (h' : inner.AtOrInside node) :
    part.AtOrInside node :=
  Relation.ReflTransGen.trans h h'

theorem AtOrInside.trans_inside (h : part.AtOrInside inner) (h' : inner.Inside node) :
    part.Inside node :=
  Relation.TransGen.trans_right h h'

theorem Inside.trans_atOrInside (h : part.Inside inner) (h' : inner.AtOrInside node) :
    part.Inside node :=
  Relation.TransGen.trans_left h h'

theorem Inside.size_lt (h : part.Inside node) : part.size < node.size := by
  induction h with
  | single h => exact size_lt_of_mem h
  | tail _ h ih => exact Nat.lt_trans ih (size_lt_of_mem h)

theorem AtOrInside.size_le (h : part.AtOrInside node) : part.size ≤ node.size := by
  induction h with
  | refl => exact Nat.le_refl _
  | tail _ h ih => exact Nat.le_of_lt (Nat.lt_of_le_of_lt ih (size_lt_of_mem h))

/-! ### Views -/

theorem inside_of_field? {role : Role} (h : node.field? role = some part) : part.Inside node :=
  .of_mem (mem_of_field? h)

theorem inside_of_mem_namedChildren (h : part ∈ node.namedChildren) : part.Inside node :=
  .of_mem (mem_of_mem_namedChildren h)

theorem inside_of_firstNamed? (h : node.firstNamed? = some part) : part.Inside node :=
  inside_of_mem_namedChildren (List.mem_of_mem_head? h)

theorem unwrap?_eq (node : Node) : node.unwrap? =
    if node.kind.isWrapper then node.firstNamed?.bind unwrap? else some node := by
  rw [unwrap?.eq_def]
  split
  · cases node.firstNamed? <;> rfl
  · rfl

theorem unwrapAwait?_eq (node : Node) : node.unwrapAwait? = node.unwrap?.bind fun inner =>
    if inner.kind == .awaitExpression then inner.firstNamed?.bind unwrapAwait? else some inner := by
  rw [unwrapAwait?.eq_def]
  split
  · rename_i hnone
    rw [hnone]
    rfl
  · rename_i inner hinner
    rw [hinner, Option.bind_some]
    split
    · cases inner.firstNamed? <;> rfl
    · rfl

/-- What is under wrappers is none itself. -/
theorem unwrap?_of_unwrap? (h : node.unwrap? = some inner) : inner.unwrap? = some inner := by
  fun_induction unwrap? node with
  | case1 node _ first _ ih => exact ih h
  | case2 => cases h
  | case3 node hkind =>
      cases h
      rw [unwrap?_eq, if_neg hkind]

theorem atOrInside_of_unwrap? (h : node.unwrap? = some inner) : inner.AtOrInside node := by
  fun_induction unwrap? node with
  | case1 node _ first hfirst ih => exact (ih h).trans (inside_of_firstNamed? hfirst).atOrInside
  | case2 => cases h
  | case3 =>
      cases h
      exact .refl _

theorem atOrInside_of_unwrapAwait? (h : node.unwrapAwait? = some inner) :
    inner.AtOrInside node := by
  fun_induction unwrapAwait? node with
  | case1 => cases h
  | case2 node unwrapped hunwrapped _ awaited hawaited ih =>
      exact (ih h).trans ((inside_of_firstNamed? hawaited).atOrInside.trans
        (atOrInside_of_unwrap? hunwrapped))
  | case3 => cases h
  | case4 node unwrapped hunwrapped _ =>
      cases h
      exact atOrInside_of_unwrap? hunwrapped

theorem inside_of_unwrappedField? {role : Role} (h : node.unwrappedField? role = some inner) :
    inner.Inside node := by
  obtain ⟨field, hfield, hinner⟩ := Option.bind_eq_some_iff.1 h
  exact (atOrInside_of_unwrap? hinner).trans_inside (inside_of_field? hfield)

theorem inside_of_mem_callArguments (h : part ∈ node.callArguments) : part.Inside node := by
  rw [callArguments] at h
  split at h
  · rename_i list hlist
    exact (inside_of_mem_namedChildren h).trans (inside_of_field? hlist)
  · cases h

theorem inside_of_memberParts? {name : String} (h : node.memberParts? = some (part, name)) :
    part.Inside node := by
  rw [memberParts?] at h
  split at h
  · split at h
    · rename_i hobject _
      cases h
      exact inside_of_field? hobject
    · cases h
  · cases h

theorem inside_of_callParts? {callee : String} {args : List Node}
    (h : node.callParts? = some (callee, args)) (ha : part ∈ args) : part.Inside node := by
  rw [callParts?] at h
  obtain ⟨_, -, h⟩ := Option.map_eq_some_iff.1 h
  split at h
  · rename_i list hlist
    split at h
    · cases h
      exact (inside_of_mem_namedChildren ha).trans (inside_of_field? hlist)
    · cases h
      cases ha
  · cases h
    cases ha

theorem inside_of_mem_declarators (h : part ∈ node.declarators) : part.Inside node :=
  inside_of_mem_namedChildren (List.mem_filter.1 h).1

/-! ### The nodes of one function -/

mutual
theorem atOrInside_of_mem_ownNodes : ∀ {node part : Node}, part ∈ node.ownNodes →
    part.AtOrInside node
  | .leaf .., part, h => by
      rw [ownNodes, List.mem_singleton] at h
      exact h ▸ .refl _
  | .branch _ _ children, part, h => by
      rw [ownNodes] at h
      rcases List.mem_cons.1 h with rfl | h
      · exact .refl _
      · obtain ⟨child, hchild, hpart⟩ := exists_atOrInside_of_mem_ownNodesOfParts h
        exact hpart.trans (Inside.of_mem hchild).atOrInside

theorem exists_atOrInside_of_mem_ownNodesOfParts : ∀ {parts : List Node} {part : Node},
    part ∈ ownNodesOfParts parts → ∃ child ∈ parts, part.AtOrInside child
  | [], part, h => by cases h
  | first :: rest, part, h => by
      rw [ownNodesOfParts] at h
      have hrest : part ∈ ownNodesOfParts rest → ∃ child ∈ first :: rest, part.AtOrInside child := by
        intro h
        obtain ⟨child, hchild, hpart⟩ := exists_atOrInside_of_mem_ownNodesOfParts h
        exact ⟨child, List.mem_cons_of_mem _ hchild, hpart⟩
      split at h
      · exact hrest h
      · rcases List.mem_append.1 h with h | h
        · exact ⟨first, List.mem_cons_self, atOrInside_of_mem_ownNodes h⟩
        · exact hrest h
end

theorem atOrInside_of_mem_returnedExpressions (h : part ∈ node.returnedExpressions) :
    part.AtOrInside node := by
  rw [returnedExpressions] at h
  split at h
  · cases h
  · rename_i body hbody
    have hinside := inside_of_field? hbody
    split at h
    · obtain ⟨statement, hs, hreturned⟩ := List.mem_filterMap.1 h
      exact ((inside_of_firstNamed? hreturned).atOrInside.trans
        (atOrInside_of_mem_ownNodes (List.mem_filter.1 hs).1)).trans hinside.atOrInside
    · rw [List.mem_singleton.1 h]
      exact hinside.atOrInside

end RouteBinder.Source.Node
