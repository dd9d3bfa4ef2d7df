import RouteBinder.Proofs.Source.Exchanged

/-!
# RouteBinder.Proofs.Source.Listings

**Which nodes a walk lists, and in which order.** The positions of a tree, written down from the root on
and from left to right, are all its positions, and they ascend: a position comes before those that it
leads to, and a child with all that is below it comes before the next child. Every walk lists the nodes
along these positions (`Node.walks_follow_positions`):

* `Node.preorder` lists all of them, and so does the loop with a stack (`visit_eq`);
* `Node.ownNodes` and `Spot.own` list those with no function on the way, the root of the walk aside
  (`own_eq`).
-/

namespace RouteBinder.Source

/-- The spot as it is seen from a tree that stands in the nodes `above`, if it is a spot of it. -/
def Spot.within (spot : Spot) (above : List Node) : Spot := { spot with above := spot.above ++ above }

/-- The nodes that lead from the root of a tree to the spot, the last one first and the root left out. -/
def Spot.way (spot : Spot) : List Node := (spot.node :: spot.above).dropLast

/-- Does no function begin on the way to the spot? -/
def Spot.isOwn (spot : Spot) : Bool := spot.way.all (!·.opensFunction)

namespace Node

variable {tree : Node} {spot : Spot} {position : Position} {front parts : List Node}

/-! ### The loop with a stack -/

/-- What is visited are the nodes on the stack, with all that is in them. -/
theorem visit_eq (stack : List Node) : visit stack = preorderOfParts stack := by
  fun_induction visit stack with
  | case1 => rfl
  | case2 node stack ih =>
      have happend : ∀ parts : List Node,
          preorderOfParts (parts ++ stack) = preorderOfParts parts ++ preorderOfParts stack := by
        intro parts
        induction parts with
        | nil => rfl
        | cons part rest ih => rw [List.cons_append, preorderOfParts, preorderOfParts, ih, List.append_assoc]
      rw [ih, happend, preorderOfParts]
      cases node with
      | leaf => rfl
      | branch => rfl

/-! ### Positions -/

mutual
/-- The positions of a tree, from the root on and from left to right. -/
def positions : Node → List Position
  | .leaf .. => [[]]
  | .branch _ _ children => [] :: positionsOfParts 0 children

/-- The positions of consecutive parts, of which the first stands at `place`. -/
def positionsOfParts (place : Nat) : List Node → List Position
  | [] => []
  | part :: rest => part.positions.map (place :: ·) ++ positionsOfParts (place + 1) rest
end

theorem positions_eq (tree : Node) : tree.positions = [] :: positionsOfParts 0 tree.children := by
  cases tree with
  | leaf => rfl
  | branch => rfl

/-- The positions of parts start with their places. -/
theorem mem_positionsOfParts_iff {place : Nat} : position ∈ positionsOfParts place parts ↔
    ∃ i rest part, position = (place + i) :: rest ∧ parts[i]? = some part ∧ rest ∈ part.positions := by
  induction parts generalizing place with
  | nil => simp [positionsOfParts]
  | cons first others ih =>
      rw [positionsOfParts, List.mem_append, List.mem_map, ih]
      constructor
      · rintro (⟨rest, hrest, rfl⟩ | ⟨i, rest, part, rfl, hpart, hrest⟩)
        · exact ⟨0, rest, first, rfl, rfl, hrest⟩
        · exact ⟨i + 1, rest, part, by rw [Nat.add_right_comm, Nat.add_assoc], hpart, hrest⟩
      · rintro ⟨_ | i, rest, part, rfl, hpart, hrest⟩
        · cases hpart
          exact Or.inl ⟨rest, hrest, rfl⟩
        · exact Or.inr ⟨i, rest, part, by rw [Nat.add_right_comm, Nat.add_assoc], hpart, hrest⟩

/-- All positions of a tree are listed, and nothing else. -/
theorem mem_positions_iff : position ∈ tree.positions ↔ (tree.spotAt? position).isSome = true := by
  induction position generalizing tree with
  | nil => simp [positions_eq, spotAt?]
  | cons i rest ih =>
      rw [positions_eq, List.mem_cons, mem_positionsOfParts_iff, spotAt?_cons]
      simp only [reduceCtorEq, false_or, Nat.zero_add, List.cons.injEq]
      cases hchild : tree.children[i]? with
      | none =>
          refine iff_of_false ?_ Bool.false_ne_true
          rintro ⟨j, below, part, ⟨rfl, -⟩, hpart, -⟩
          rw [hchild] at hpart
          cases hpart
      | some child =>
          rw [Option.bind_some, Option.isSome_map, ← ih]
          constructor
          · rintro ⟨j, below, part, ⟨rfl, rfl⟩, hpart, hbelow⟩
            rw [hchild] at hpart
            cases hpart
            exact hbelow
          · exact fun h => ⟨i, rest, child, ⟨rfl, rfl⟩, hchild, h⟩

mutual
/-- The positions ascend. -/
theorem pairwise_positions : ∀ tree : Node, tree.positions.Pairwise (· < ·)
  | .leaf .. => List.pairwise_singleton _ _
  | .branch _ _ children => by
      rw [positions, List.pairwise_cons]
      refine ⟨fun position h => ?_, pairwise_positionsOfParts 0 children⟩
      obtain ⟨i, rest, -, rfl, -⟩ := mem_positionsOfParts_iff.1 h
      exact List.nil_lt_cons _ _

theorem pairwise_positionsOfParts : ∀ (place : Nat) (parts : List Node),
    (positionsOfParts place parts).Pairwise (· < ·)
  | _, [] => List.Pairwise.nil
  | place, part :: rest => by
      rw [positionsOfParts, List.pairwise_append]
      refine ⟨?_, pairwise_positionsOfParts (place + 1) rest, fun position h other hother => ?_⟩
      · rw [List.pairwise_map]
        exact (pairwise_positions part).imp fun h => List.cons_lt_cons_iff.2 (Or.inr ⟨rfl, h⟩)
      · obtain ⟨inner, -, rfl⟩ := List.mem_map.1 h
        obtain ⟨i, below, -, rfl, -⟩ := mem_positionsOfParts_iff.1 hother
        exact List.cons_lt_cons_iff.2 (Or.inl (by omega))
end

mutual
/-- Along the positions, each spot of a tree stands once. -/
theorem filterMap_positions : ∀ tree : Node, tree.positions.filterMap tree.spotAt? = tree.spots
  | .leaf .. => rfl
  | .branch place kind children => by
      have hparts := filterMap_positionsOfParts children [] (.branch place kind children) rfl
      rw [positions, spots, ← hparts]
      rfl

theorem filterMap_positionsOfParts : ∀ (parts front : List Node) (tree : Node),
    tree.children = front ++ parts →
    (positionsOfParts front.length parts).filterMap tree.spotAt? =
      (spotsOfParts parts).map (·.inside tree)
  | [], _, _, _ => rfl
  | part :: rest, front, tree, h => by
      have hat : tree.children[front.length]? = some part := by
        rw [h, List.getElem?_append_right le_rfl, Nat.sub_self]
        rfl
      have hpart : (part.positions.map (front.length :: ·)).filterMap tree.spotAt? =
          part.spots.map (·.inside tree) := by
        rw [← filterMap_positions part, List.filterMap_map, List.map_filterMap]
        congr 1
        funext position
        rw [Function.comp_apply, spotAt?_cons, hat, Option.bind_some]
      have hrest := filterMap_positionsOfParts rest (front ++ [part]) tree
        (by rw [h, List.append_assoc, List.singleton_append])
      rw [List.length_append, List.length_singleton] at hrest
      rw [positionsOfParts, List.filterMap_append, hpart, hrest, spotsOfParts, List.map_append]
end

/-! ### The nodes of one function -/

/-- Every spot of a tree leads back to the root. -/
theorem exists_way_of_mem_spots (h : spot ∈ tree.spots) : spot.node :: spot.above = spot.way ++ [tree] := by
  obtain ⟨position, hposition⟩ := mem_spots_iff.1 h
  induction position generalizing tree spot with
  | nil =>
      cases hposition
      rfl
  | cons i rest ih =>
      rw [spotAt?_cons] at hposition
      obtain ⟨child, -, hposition⟩ := Option.bind_eq_some_iff.1 hposition
      obtain ⟨inner, -, rfl⟩ := Option.map_eq_some_iff.1 hposition
      rw [Spot.way, Spot.inside, ← List.cons_append, List.dropLast_concat]

/-- Seen from a tree around it, a spot is one of the tree's own if it is and the part that it is in opens
no function. -/
theorem isOwn_inside (outer : Node) {part : Node} (h : spot ∈ part.spots) :
    (spot.inside outer).isOwn = (!part.opensFunction && spot.isOwn) := by
  have hway : (spot.inside outer).way = spot.way ++ [part] := by
    rw [← exists_way_of_mem_spots h, Spot.way, Spot.inside, ← List.cons_append, List.dropLast_concat]
  rw [Spot.isOwn, hway, List.all_append, Bool.and_comm, Spot.isOwn, List.all_cons, List.all_nil,
    Bool.and_true]

theorem filter_isOwn_inside (outer part : Node) :
    (part.spots.map (·.inside outer)).filter Spot.isOwn =
      if part.opensFunction then [] else (part.spots.filter Spot.isOwn).map (·.inside outer) := by
  rw [List.filter_map]
  have hpart : ∀ spot ∈ part.spots, (Spot.isOwn ∘ (·.inside outer)) spot =
      (!part.opensFunction && spot.isOwn) := fun spot h => isOwn_inside outer h
  rw [List.filter_congr hpart]
  split
  · rename_i hfunction
    simp [hfunction]
  · rename_i hfunction
    simp [hfunction]

mutual
/-- A walk through one function lists the spots with no function on the way. -/
theorem own_eq : ∀ (above : List Node) (tree : Node),
    Spot.own above tree = (tree.spots.filter Spot.isOwn).map (·.within above)
  | above, .leaf .. => rfl
  | above, .branch place kind children => by
      have hroot : ({ node := .branch place kind children } : Spot).isOwn = true := rfl
      rw [Spot.own, spots, List.filter_cons_of_pos hroot, List.map_cons, ownOfParts_eq]
      rfl

theorem ownOfParts_eq : ∀ (above : List Node) (outer : Node) (parts : List Node),
    Spot.ownOfParts (outer :: above) parts =
      (((spotsOfParts parts).map (·.inside outer)).filter Spot.isOwn).map (·.within above)
  | _, _, [] => rfl
  | above, outer, part :: rest => by
      have hwithin : ∀ spot : Spot, (spot.inside outer).within above = spot.within (outer :: above) := by
        intro spot
        simp [Spot.inside, Spot.within]
      rw [Spot.ownOfParts, spotsOfParts, List.map_append, List.filter_append, List.map_append,
        filter_isOwn_inside, ownOfParts_eq above outer rest]
      split
      · rfl
      · rw [own_eq, List.map_map]
        simp only [Function.comp_def, hwithin]
end

mutual
theorem map_node_own : ∀ (above : List Node) (tree : Node),
    (Spot.own above tree).map (·.node) = tree.ownNodes
  | _, .leaf .. => rfl
  | above, .branch place kind children => by
      rw [Spot.own, ownNodes, List.map_cons, map_node_ownOfParts]

theorem map_node_ownOfParts : ∀ (above parts : List Node),
    (Spot.ownOfParts above parts).map (·.node) = ownNodesOfParts parts
  | _, [] => rfl
  | above, part :: rest => by
      rw [Spot.ownOfParts, ownNodesOfParts, ← map_node_ownOfParts above rest, ← map_node_own above part]
      split
      · rfl
      · rw [List.map_append]
end

/-! ### Walks -/

/-- The positions of a tree ascend, and they are all its positions. Along them, the full walks list every
node, and the walks through one function list exactly those nodes with no function on the way, the root
left out. -/
theorem walks_follow_positions (tree : Node) :
    let spots := tree.positions.filterMap tree.spotAt?
    tree.positions.Pairwise (· < ·) ∧
      (∀ position, position ∈ tree.positions ↔ (tree.spotAt? position).isSome = true) ∧
      tree.preorder = spots.map (·.node) ∧
      visit [tree] = spots.map (·.node) ∧
      Spot.own [] tree = spots.filter Spot.isOwn ∧
      tree.ownNodes = (spots.filter Spot.isOwn).map (·.node) := by
  intro spots
  have hspots : spots = tree.spots := filterMap_positions tree
  have hwithin : (fun spot : Spot => spot.within []) = id := by
    funext spot
    rw [Spot.within, List.append_nil, id]
  have hown : Spot.own [] tree = spots.filter Spot.isOwn := by
    rw [own_eq, hwithin, List.map_id, hspots]
  have hvisit : visit [tree] = tree.preorder := by
    rw [visit_eq, preorderOfParts, preorderOfParts, List.append_nil]
  refine ⟨pairwise_positions tree, fun _ => mem_positions_iff, ?_, ?_, hown, ?_⟩
  · rw [hspots, map_node_spots]
  · rw [hvisit, hspots, map_node_spots]
  · rw [← hown, map_node_own]

end Node

end RouteBinder.Source
