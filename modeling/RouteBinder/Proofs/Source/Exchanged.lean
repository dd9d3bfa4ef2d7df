import RouteBinder.Proofs.Source.Scopes
import RouteBinder.Proofs.Source.Spliced

/-!
# RouteBinder.Proofs.Source.Exchanged

**Nodes in place of nodes.** An `Exchange` puts nodes in place of some nodes of a tree, the outermost ones
first. The tree that comes out, `Node.exchanged`, has the text that a substitution by the texts of the new
nodes writes (`text_exchanged`), so what such a substitution does can be asked of a tree.

A position of the tree that comes out is a position of the old one with nothing replaced around it, or it
leads into a new node (`exists_of_spotAt?_exchanged`). The nodes of the tree that comes out are found in
the same way (`mem_preorder_exchanged_iff`, for new nodes without parts).
-/

namespace RouteBinder.Source

/-- A rule for putting nodes in place of nodes: the new node, or nothing to keep the old one. -/
abbrev Exchange := Node → Option Node

/-- The substitution that writes the new nodes. -/
def Exchange.substitution (exchange : Exchange) : Substitution := fun node _ =>
  (exchange node).map Node.text

/-- Nothing around the spot is replaced. -/
def Spot.Exposed (exchange : Exchange) (spot : Spot) : Prop :=
  ∀ node ∈ spot.above, exchange node = none

instance (exchange : Exchange) (spot : Spot) : Decidable (spot.Exposed exchange) :=
  inferInstanceAs (Decidable (∀ node ∈ spot.above, exchange node = none))

namespace Node

variable {exchange : Exchange} {node new : Node}

mutual
/-- The node with new nodes in place of old ones. A new node stands where the old one stood. -/
def exchanged (exchange : Exchange) : Node → Node
  | .leaf place kind text =>
    match exchange (.leaf place kind text) with
    | some new => new.placedAt place
    | none => .leaf place kind text
  | .branch place kind children =>
    match exchange (.branch place kind children) with
    | some new => new.placedAt place
    | none => .branch place kind (exchangedParts exchange children)

def exchangedParts (exchange : Exchange) : List Node → List Node
  | [] => []
  | part :: rest => exchanged exchange part :: exchangedParts exchange rest
end

theorem exchangedParts_eq_map (parts : List Node) :
    exchangedParts exchange parts = parts.map (exchanged exchange) := by
  induction parts with
  | nil => rfl
  | cons part rest ih => rw [exchangedParts, ih, List.map_cons]

/-! ### One node -/

theorem place_placedAt (node : Node) (place : Place) : (node.placedAt place).place = place := by
  cases node <;> rfl

theorem kind_placedAt (node : Node) (place : Place) : (node.placedAt place).kind = node.kind := by
  cases node <;> rfl

theorem children_placedAt (node : Node) (place : Place) :
    (node.placedAt place).children = node.children := by
  cases node <;> rfl

theorem text_placedAt (node : Node) (place : Place) : (node.placedAt place).text = node.text := by
  cases node <;> rfl

theorem exchanged_of_replaced (h : exchange node = some new) :
    exchanged exchange node = new.placedAt node.place := by
  cases node <;> rw [exchanged, h] <;> rfl

theorem children_exchanged (h : exchange node = none) :
    (exchanged exchange node).children = node.children.map (exchanged exchange) := by
  cases node with
  | leaf =>
      rw [exchanged, h]
      rfl
  | branch =>
      rw [exchanged, h]
      exact exchangedParts_eq_map _

theorem kind_exchanged (h : exchange node = none) :
    (exchanged exchange node).kind = node.kind := by
  cases node with
  | leaf => rw [exchanged, h]
  | branch =>
      rw [exchanged, h]
      rfl

theorem place_exchanged (node : Node) : (exchanged exchange node).place = node.place := by
  cases h : exchange node with
  | some new => rw [exchanged_of_replaced h, place_placedAt]
  | none =>
      cases node with
      | leaf => rw [exchanged, h]
      | branch =>
          rw [exchanged, h]
          rfl

theorem role_exchanged (node : Node) : (exchanged exchange node).role = node.role := by
  rw [role, role, place_exchanged]

/-- What plays a role in a node that is not replaced is what played it before. -/
theorem field?_exchanged (h : exchange node = none) (role : Role) :
    (node.exchanged exchange).field? role = (node.field? role).map (exchanged exchange) := by
  have hrole : ((fun child : Node => child.role == some role) ∘ exchanged exchange) =
      fun child => child.role == some role := by
    funext child
    rw [Function.comp_apply, role_exchanged]
  rw [field?, field?, children_exchanged h, List.find?_map, hrole]

/-- The text of the tree that comes out is what the substitution writes. -/
theorem text_exchanged (node : Node) :
    (exchanged exchange node).text = splice exchange.substitution node := by
  cases h : exchange node with
  | some new =>
      have hanswer : exchange.substitution.answer? node = some new.text := by
        rw [Substitution.answer?, Exchange.substitution, h, Option.map_some]
      rw [exchanged_of_replaced h, text_placedAt, splice_of_answer hanswer]
  | none =>
      have hleaves : exchange.substitution.Leaves node := fun write => by
        rw [Exchange.substitution, h]
        rfl
      cases node with
      | leaf => rw [splice_leaf hleaves.answer?_eq_none, exchanged, h, text]
      | branch place kind children =>
          have hchildren : ∀ child ∈ children, (exchanged exchange child).text =
              splice exchange.substitution child := by
            intro child hchild
            have hsize : child.size < (branch place kind children).size := size_lt_of_mem hchild
            exact text_exchanged child
          rw [splice_branch hleaves.answer?_eq_none, exchanged, h]
          dsimp only
          rw [text_branch, exchangedParts_eq_map, List.map_map]
          refine congrArg assemble (List.map_congr_left fun child hchild => ?_)
          rw [Function.comp_apply, gap, place_exchanged, hchildren child hchild, gap]
termination_by node.size

/-- A node in which nothing is replaced stays as it is. -/
theorem exchanged_eq_self {node : Node} (h : ∀ position spot, node.spotAt? position = some spot →
    exchange spot.node = none) : exchanged exchange node = node := by
  have hnode : exchange node = none := h [] _ rfl
  cases node with
  | leaf => rw [exchanged, hnode]
  | branch place kind children =>
      have hchildren : ∀ child ∈ children, exchanged exchange child = child := by
        intro child hchild
        have hsize : child.size < (branch place kind children).size := size_lt_of_mem hchild
        obtain ⟨i, hi⟩ := List.mem_iff_getElem?.1 hchild
        refine exchanged_eq_self fun position spot hspot => ?_
        refine h (i :: position) (spot.inside (branch place kind children)) ?_
        rw [spotAt?_cons, Node.children, hi, Option.bind_some, hspot, Option.map_some]
      rw [exchanged, hnode]
      dsimp only
      rw [exchangedParts_eq_map, List.map_congr_left hchildren, List.map_id']
termination_by node.size

end Node

/-! ### Positions in the tree that comes out -/

/-- The spot with the nodes that it becomes. -/
def Spot.exchanged (exchange : Exchange) (spot : Spot) : Spot :=
  { node := spot.node.exchanged exchange, above := spot.above.map (Node.exchanged exchange) }

namespace Node

variable {tree part : Node} {spot : Spot} {position : Position}

/-- A position in a node, seen from the tree that the node stands in. -/
theorem spotAt?_below {inner : Position} {part : Spot} (hspot : tree.spotAt? position = some spot)
    (hpart : spot.node.spotAt? inner = some part) : tree.spotAt? (position ++ inner) =
      some { part with above := part.above ++ spot.above } := by
  rw [spotAt?_append, hspot, Option.bind_some, hpart, Option.map_some]

theorem exchanged_inside (spot : Spot) (tree : Node) :
    (spot.inside tree).exchanged exchange =
      (spot.exchanged exchange).inside (tree.exchanged exchange) := by
  rw [Spot.exchanged, Spot.exchanged, Spot.inside, Spot.inside, List.map_append]
  rfl

theorem spotAt?_exchanged (h : tree.spotAt? position = some spot) (hexposed : spot.Exposed exchange) :
    (tree.exchanged exchange).spotAt? position = some (spot.exchanged exchange) := by
  induction position generalizing tree spot with
  | nil =>
      cases h
      rfl
  | cons i rest ih =>
      rw [spotAt?_cons] at h ⊢
      obtain ⟨child, hchild, h⟩ := Option.bind_eq_some_iff.1 h
      obtain ⟨inner, hinner, rfl⟩ := Option.map_eq_some_iff.1 h
      obtain ⟨hexposed, htree⟩ := List.forall_mem_append.1 hexposed
      rw [children_exchanged (htree tree (List.mem_singleton_self _)), List.getElem?_map, hchild,
        Option.map_some, Option.bind_some, ih hinner hexposed, Option.map_some, exchanged_inside]

/-- The position leads into the node that replaces the node of the spot. -/
structure IntoNew (exchange : Exchange) (tree : Node) (position : Position) (result around : Spot)
    (new : Node) (outer inner : Position) (part : Spot) : Prop where
  position_eq : position = outer ++ inner
  inner_ne : inner ≠ []
  around_at : tree.spotAt? outer = some around
  exposed : around.Exposed exchange
  replaced : exchange around.node = some new
  part_at : (new.placedAt around.node.place).spotAt? inner = some part
  result_eq : result =
    { node := part.node, above := part.above ++ around.above.map (Node.exchanged exchange) }

/-- A position of the tree that comes out is one of the old tree, or leads into a new node. -/
theorem exists_of_spotAt?_exchanged {result : Spot}
    (h : (tree.exchanged exchange).spotAt? position = some result) :
    (∃ spot, tree.spotAt? position = some spot ∧ spot.Exposed exchange ∧
        result = spot.exchanged exchange) ∨
      ∃ around new outer inner part,
        IntoNew exchange tree position result around new outer inner part := by
  induction position generalizing tree result with
  | nil =>
      cases h
      exact Or.inl ⟨_, rfl, nofun, rfl⟩
  | cons i rest ih =>
      cases hreplaced : exchange tree with
      | some new =>
          rw [exchanged_of_replaced hreplaced] at h
          refine Or.inr ⟨{ node := tree }, new, [], i :: rest, result, ?_⟩
          exact
            { position_eq := rfl
              inner_ne := List.cons_ne_nil _ _
              around_at := rfl
              exposed := nofun
              replaced := hreplaced
              part_at := h
              result_eq := by rw [List.map_nil, List.append_nil] }
      | none =>
          rw [spotAt?_cons, children_exchanged hreplaced, List.getElem?_map] at h
          obtain ⟨_, hnew, h⟩ := Option.bind_eq_some_iff.1 h
          obtain ⟨child, hchild, rfl⟩ := Option.map_eq_some_iff.1 hnew
          obtain ⟨below, hbelow, rfl⟩ := Option.map_eq_some_iff.1 h
          have htree : ∀ node ∈ [tree], exchange node = none :=
            List.forall_mem_singleton.2 hreplaced
          rcases ih hbelow with ⟨spot, hspot, hexposed, rfl⟩ |
            ⟨around, new, outer, inner, part, hinto⟩
          · refine Or.inl ⟨spot.inside tree, ?_, List.forall_mem_append.2 ⟨hexposed, htree⟩,
              (exchanged_inside _ _).symm⟩
            rw [spotAt?_cons, hchild, Option.bind_some, hspot, Option.map_some]
          · refine Or.inr ⟨around.inside tree, new, i :: outer, inner, part, ?_⟩
            exact
              { hinto with
                position_eq := congrArg (i :: ·) hinto.position_eq
                around_at := by
                  rw [spotAt?_cons, hchild, Option.bind_some, hinto.around_at, Option.map_some]
                exposed := List.forall_mem_append.2 ⟨hinto.exposed, htree⟩
                result_eq := by
                  rw [hinto.result_eq, Spot.inside, Spot.inside, List.map_append, List.append_assoc]
                  rfl }

/-! ### New nodes without parts -/

/-- The tree that comes out has the node at the position that the old one had there. -/
def StaysAt (exchange : Exchange) (tree : Node) (position : Position) : Prop :=
  ∃ spot result, tree.spotAt? position = some spot ∧
    (tree.exchanged exchange).spotAt? position = some result ∧ result.node = spot.node

/-- The exchange puts nodes without parts in place of nodes of other kinds. -/
structure Plain (exchange : Exchange) : Prop where
  children_eq : ∀ {node new : Node}, exchange node = some new → new.children = []
  kind_ne : ∀ {node new : Node}, exchange node = some new → new.kind ≠ node.kind

/-- Each position of the tree that comes out is one of the old tree, then. -/
theorem Plain.exists_of_spotAt?_exchanged (hplain : Plain exchange) {result : Spot}
    (h : (tree.exchanged exchange).spotAt? position = some result) :
    ∃ spot, tree.spotAt? position = some spot ∧ spot.Exposed exchange ∧
      result = spot.exchanged exchange := by
  refine (Node.exists_of_spotAt?_exchanged h).resolve_right ?_
  rintro ⟨around, new, outer, inner, part, hinto⟩
  obtain ⟨i, rest, rfl⟩ := List.exists_cons_of_ne_nil hinto.inner_ne
  have hpart := hinto.part_at
  rw [spotAt?_cons, children_placedAt, hplain.children_eq hinto.replaced] at hpart
  cases hpart

/-- Where a node stays, nothing around it is replaced, nor is the node itself. -/
theorem Plain.exposed_of_staysAt (hplain : Plain exchange) (hspot : tree.spotAt? position = some spot)
    (h : StaysAt exchange tree position) : spot.Exposed exchange ∧ exchange spot.node = none := by
  obtain ⟨found, result, hfound, hresult, heq⟩ := h
  obtain rfl := Option.some.inj (hspot.symm.trans hfound)
  obtain ⟨found, hfound, hexposed, rfl⟩ := hplain.exists_of_spotAt?_exchanged hresult
  obtain rfl := Option.some.inj (hspot.symm.trans hfound)
  refine ⟨hexposed, Option.eq_none_iff_forall_ne_some.2 fun new hnew => hplain.kind_ne hnew ?_⟩
  rw [← kind_placedAt new spot.node.place, ← exchanged_of_replaced hnew]
  exact congrArg Node.kind heq

/-- A node stays exactly when nothing around it is replaced, nor anything in it. -/
theorem Plain.staysAt_iff (hplain : Plain exchange) (hspot : tree.spotAt? position = some spot) :
    StaysAt exchange tree position ↔ spot.Exposed exchange ∧
      ∀ inner part, spot.node.spotAt? inner = some part → exchange part.node = none := by
  constructor
  · intro h
    obtain ⟨hexposed, -⟩ := hplain.exposed_of_staysAt hspot h
    refine ⟨hexposed, fun inner part hpart => ?_⟩
    obtain ⟨found, result, hfound, hresult, heq⟩ := h
    obtain rfl := Option.some.inj (hspot.symm.trans hfound)
    obtain rfl := Option.some.inj ((spotAt?_exchanged hspot hexposed).symm.trans hresult)
    have hinner : (spot.node.exchanged exchange).spotAt? inner = some part :=
      (congrArg (Node.spotAt? · inner) heq).trans hpart
    exact (hplain.exposed_of_staysAt hpart ⟨part, part, hpart, hinner, rfl⟩).2
  · exact fun h => ⟨spot, _, hspot, spotAt?_exchanged hspot h.1, exchanged_eq_self h.2⟩

/-! ### All nodes and their positions -/

mutual
/-- The spots of all nodes of the tree. -/
def spots : Node → List Spot
  | .leaf place kind text => [{ node := .leaf place kind text }]
  | .branch place kind children =>
    { node := .branch place kind children } ::
      (spotsOfParts children).map (·.inside (.branch place kind children))

def spotsOfParts : List Node → List Spot
  | [] => []
  | part :: rest => part.spots ++ spotsOfParts rest
end

theorem spotsOfParts_eq_flatMap (parts : List Node) : spotsOfParts parts = parts.flatMap spots := by
  induction parts with
  | nil => rfl
  | cons part rest ih => rw [spotsOfParts, ih, List.flatMap_cons]

theorem spots_eq (tree : Node) :
    tree.spots = { node := tree } :: (tree.children.flatMap spots).map (·.inside tree) := by
  cases tree with
  | leaf => rfl
  | branch =>
      rw [spots, spotsOfParts_eq_flatMap]
      rfl

/-- Each spot is at a position of the tree. -/
theorem mem_spots_iff {tree : Node} {spot : Spot} :
    spot ∈ tree.spots ↔ ∃ position, tree.spotAt? position = some spot := by
  rw [spots_eq, List.mem_cons, List.mem_map]
  constructor
  · rintro (rfl | ⟨inner, hinner, rfl⟩)
    · exact ⟨[], rfl⟩
    · obtain ⟨child, hchild, hinner⟩ := List.mem_flatMap.1 hinner
      have hsize : child.size < tree.size := size_lt_of_mem hchild
      obtain ⟨position, hposition⟩ := mem_spots_iff.1 hinner
      obtain ⟨i, hi⟩ := List.mem_iff_getElem?.1 hchild
      exact ⟨i :: position, by rw [spotAt?_cons, hi, Option.bind_some, hposition, Option.map_some]⟩
  · rintro ⟨_ | ⟨i, rest⟩, hspot⟩
    · exact Or.inl (Option.some.inj hspot).symm
    · rw [spotAt?_cons] at hspot
      obtain ⟨child, hchild, hspot⟩ := Option.bind_eq_some_iff.1 hspot
      obtain ⟨inner, hinner, rfl⟩ := Option.map_eq_some_iff.1 hspot
      have hchild := List.mem_of_getElem? hchild
      have hsize : child.size < tree.size := size_lt_of_mem hchild
      exact Or.inr ⟨inner, List.mem_flatMap.2 ⟨child, hchild, mem_spots_iff.2 ⟨rest, hinner⟩⟩, rfl⟩
termination_by tree.size

mutual
theorem map_node_spots : ∀ tree : Node, tree.spots.map (·.node) = tree.preorder
  | .leaf .. => rfl
  | .branch place kind children => by
      rw [spots, preorder, List.map_cons, List.map_map, ← map_node_spotsOfParts children]
      rfl

theorem map_node_spotsOfParts : ∀ parts : List Node,
    (spotsOfParts parts).map (·.node) = preorderOfParts parts
  | [] => rfl
  | part :: rest => by
      rw [spotsOfParts, preorderOfParts, List.map_append, map_node_spots part,
        map_node_spotsOfParts rest]
end

/-- The nodes of a tree are those at its positions. -/
theorem mem_preorder_iff : part ∈ tree.preorder ↔
    ∃ position spot, tree.spotAt? position = some spot ∧ spot.node = part := by
  rw [← map_node_spots, List.mem_map]
  simp only [mem_spots_iff, ← exists_and_right]
  exact exists_comm

/-- The nodes of the tree that comes out are what becomes of the nodes around which nothing is replaced. -/
theorem Plain.mem_preorder_exchanged_iff (hplain : Plain exchange) :
    part ∈ (tree.exchanged exchange).preorder ↔
      ∃ position spot, tree.spotAt? position = some spot ∧ spot.Exposed exchange ∧
        spot.node.exchanged exchange = part := by
  rw [mem_preorder_iff]
  constructor
  · rintro ⟨position, result, hresult, rfl⟩
    obtain ⟨spot, hspot, hexposed, rfl⟩ := hplain.exists_of_spotAt?_exchanged hresult
    exact ⟨position, spot, hspot, hexposed, rfl⟩
  · rintro ⟨position, spot, hspot, hexposed, rfl⟩
    exact ⟨position, _, spotAt?_exchanged hspot hexposed, rfl⟩

end Node

end RouteBinder.Source
