import Mathlib.Data.String.Basic
import RouteBinder.Proofs.Source.Inside
import RouteBinder.Source.Splice

/-!
# RouteBinder.Proofs.Source.Spliced

**Parts of a node in its text.** The text of a node contains the texts of the nodes inside it
(`AtOrInside.infix_text`). When some nodes are replaced, it still contains the text of every node that is
`Kept`: no node around it is replaced, or the replacement writes it down again, and nothing in it is
replaced (`Kept.infix_splice`).
-/

namespace RouteBinder.Source

/-- What a transform that is asked about `here` has written down for a smaller node. -/
def Transform.writer (transform : Transform) (here part : Located) : String :=
  if part.node.size < here.node.size then Node.rendered transform part.position part.node else part.node.text

/-- The answer of a transform that is asked about the node. -/
def Transform.answer? (transform : Transform) (here : Located) : Option String :=
  transform here (transform.writer here)

/-- What a substitution that is asked about `node` has written down for a smaller node. -/
def Substitution.writer (substitution : Substitution) (node part : Node) : String :=
  if part.size < node.size then Node.splice substitution part else part.text

/-- The answer of a substitution that is asked about the node. -/
def Substitution.answer? (substitution : Substitution) (node : Node) : Option String :=
  substitution node (substitution.writer node)

/-- The substitution does not replace the node. -/
def Substitution.Leaves (substitution : Substitution) (node : Node) : Prop :=
  ∀ write, substitution node write = none

theorem Substitution.Leaves.answer?_eq_none {substitution : Substitution} {node : Node}
    (h : substitution.Leaves node) : substitution.answer? node = none := h _

/-- A replacement of the node writes down the part. -/
def Substitution.Writes (substitution : Substitution) (node part : Node) : Prop :=
  ∀ write, ∃ replacement, substitution node write = some replacement ∧
    (write part).toList <:+: replacement.toList

namespace Node

variable {node part child inner : Node} {substitution : Substitution}

/-! ### Texts of parts -/

theorem isSymbol_leaf (place : Place) (text : String) :
    (Node.leaf place .symbol text).isSymbol text = true := beq_self_eq_true text

theorem eq_leaf_of_isSymbol {text : String} (h : node.isSymbol text = true) :
    ∃ place, node = .leaf place .symbol text := by
  cases node with
  | leaf place kind found =>
      rw [Node.isSymbol.eq_def] at h
      split at h
      · rename_i heq
        cases heq
        exact ⟨place, by rw [beq_iff_eq.1 h]⟩
      · cases h
  | branch => cases h

theorem infix_assemble {parts : List (String × String)} {gap text : String}
    (h : (gap, text) ∈ parts) : text.toList <:+: (assemble parts).toList := by
  cases parts with
  | nil => cases h
  | cons first rest =>
      rw [assemble, String.toList_append, String.toList_join]
      rcases List.mem_cons.1 h with rfl | h
      · exact (List.prefix_append _ _).isInfix
      · obtain ⟨before, after, rfl⟩ := List.append_of_mem h
        refine List.IsInfix.trans ?_ (List.suffix_append _ _).isInfix
        rw [List.map_append, List.map_cons, List.flatMap_append, List.flatMap_cons,
          String.toList_append]
        exact ((List.suffix_append _ _).isInfix.trans (List.prefix_append _ _).isInfix).trans
          (List.suffix_append _ _).isInfix

/-- Consecutive parts, each written as it is where it stands: the first gap belongs to the surroundings. -/
def writtenParts (write : Nat → Node → String) : Nat → List Node → String
  | _, [] => ""
  | place, part :: rest =>
    (if place = 0 then "" else part.gap) ++ (write place part ++ writtenParts write (place + 1) rest)

theorem writtenParts_succ (write : Nat → Node → String) (place : Nat) (parts : List Node) :
    writtenParts write (place + 1) parts =
      String.join ((parts.mapIdx fun i part => (part.gap, write (i + (place + 1)) part)).map
        fun (gap, text) => gap ++ text) := by
  induction parts generalizing place with
  | nil => rfl
  | cons part rest ih =>
      have hplace : ∀ i, i + (place + 1 + 1) = i + 1 + (place + 1) := by omega
      rw [writtenParts, if_neg (Nat.succ_ne_zero place), ih, List.mapIdx_cons, List.map_cons,
        String.join_cons, String.append_assoc, Nat.zero_add]
      simp only [hplace]

theorem assemble_eq_writtenParts (write : Nat → Node → String) (parts : List Node) :
    assemble (parts.mapIdx fun place part => (part.gap, write place part)) =
      writtenParts write 0 parts := by
  cases parts with
  | nil => rfl
  | cons part rest =>
      rw [writtenParts, if_pos rfl, writtenParts_succ, String.empty_append, List.mapIdx_cons, assemble]

theorem textOfParts_eq_writtenParts (parts : List Node) (place : Nat) :
    textOfParts parts (place == 0) = writtenParts (fun _ => text) place parts := by
  induction parts generalizing place with
  | nil => rfl
  | cons part rest ih =>
      have hrest : textOfParts rest false = writtenParts (fun _ => text) (place + 1) rest := ih (place + 1)
      rw [textOfParts, writtenParts, hrest]
      simp only [beq_iff_eq]

/-- Parts that are written without regard to where they stand. -/
theorem mapIdx_eq_map {parts : List Node} {write : Nat → Node → String} {written : Node → String}
    (h : ∀ place, ∀ part ∈ parts, write place part = written part) :
    (parts.mapIdx fun place part => (part.gap, write place part)) =
      parts.map fun part => (part.gap, written part) := by
  refine List.ext_getElem? fun place => ?_
  rw [List.getElem?_mapIdx, List.getElem?_map]
  cases hpart : parts[place]? with
  | none => rfl
  | some part =>
      rw [Option.map_some, Option.map_some, h place part (List.mem_of_getElem? hpart)]

theorem text_branch_eq_writtenParts (place : Place) (kind : Kind) (children : List Node) :
    (branch place kind children).text = writtenParts (fun _ => text) 0 children :=
  textOfParts_eq_writtenParts children 0

/-- The text of a branch is assembled from its children. -/
theorem text_branch (place : Place) (kind : Kind) (children : List Node) :
    (branch place kind children).text =
      assemble (children.map fun child => (child.gap, child.text)) := by
  rw [text_branch_eq_writtenParts, ← assemble_eq_writtenParts]
  exact congrArg assemble (mapIdx_eq_map fun _ _ _ => rfl)

theorem infix_text_of_mem (h : child ∈ node.children) :
    child.text.toList <:+: node.text.toList := by
  cases node with
  | leaf => cases h
  | branch place kind children =>
      rw [text_branch]
      exact infix_assemble (List.mem_map_of_mem (f := fun child => (child.gap, child.text)) h)

/-- The text of a node contains the texts of the nodes in it. -/
theorem AtOrInside.infix_text (h : part.AtOrInside node) :
    part.text.toList <:+: node.text.toList := by
  induction h with
  | refl => exact List.infix_rfl
  | tail _ hchild ih => exact ih.trans (infix_text_of_mem hchild)

/-! ### Replacing nodes of a tree -/

theorem rendered_eq (transform : Transform) (position : Position) (node : Node) :
    rendered transform position node =
      match transform.answer? { node, position } with
      | some replacement => replacement
      | none =>
        match node with
        | .leaf _ _ text => text
        | .branch _ _ children =>
          assemble (children.mapIdx fun place child =>
            (child.gap, rendered transform (position ++ [place]) child)) := by
  have hchildren : ∀ children : List Node, (children.attach.mapIdx fun place part =>
      (part.val.gap, rendered transform (position ++ [place]) part.val)) =
        children.mapIdx fun place child => (child.gap, rendered transform (position ++ [place]) child) := by
    intro children
    refine List.ext_getElem (by simp only [List.length_mapIdx, List.length_attach]) fun place _ _ => ?_
    rw [List.getElem_mapIdx, List.getElem_mapIdx, List.getElem_attach]
  rw [rendered.eq_def]
  simp only [hchildren]
  rfl

theorem rendered_of_answer {transform : Transform} {position : Position} {text : String}
    (h : transform.answer? { node, position } = some text) : rendered transform position node = text := by
  rw [rendered_eq, h]

theorem rendered_leaf {transform : Transform} {position : Position} {place : Place} {kind : Kind}
    {text : String} (h : transform.answer? { node := leaf place kind text, position } = none) :
    rendered transform position (leaf place kind text) = text := by
  rw [rendered_eq, h]

theorem rendered_branch {transform : Transform} {position : Position} {place : Place} {kind : Kind}
    {children : List Node}
    (h : transform.answer? { node := branch place kind children, position } = none) :
    rendered transform position (branch place kind children) =
      assemble (children.mapIdx fun place child =>
        (child.gap, rendered transform (position ++ [place]) child)) := by
  rw [rendered_eq, h]

/-- A node in which nothing is replaced is written as it is. -/
theorem rendered_eq_text {transform : Transform} {node : Node} {position : Position}
    (h : ∀ part : Located, part.node.AtOrInside node → position <+: part.position →
      transform.answer? part = none) : rendered transform position node = node.text := by
  have hnode : transform.answer? { node, position } = none := h _ (.refl _) List.prefix_rfl
  cases node with
  | leaf => exact rendered_leaf hnode
  | branch place kind children =>
      rw [rendered_branch hnode, text_branch]
      refine congrArg assemble (mapIdx_eq_map fun i child hchild => ?_)
      have hsize : child.size < (branch place kind children).size := size_lt_of_mem hchild
      exact rendered_eq_text fun part hpart hprefix =>
        h part (hpart.trans (Inside.of_mem hchild).atOrInside)
          ((List.prefix_append position [i]).trans hprefix)
termination_by node.size

/-! ### Replacing children of one node -/

theorem rendered_ofChildren (replace? : Nat → Option String) (place : Nat) (node : Node) :
    rendered (.ofChildren replace?) [place] node = (replace? place).getD node.text := by
  cases hreplace : replace? place with
  | some text => exact rendered_of_answer hreplace
  | none =>
      refine rendered_eq_text fun part _ hprefix => ?_
      obtain ⟨rest, hrest⟩ := hprefix
      rw [Transform.answer?, Transform.ofChildren, ← hrest]
      cases rest with
      | nil => exact hreplace
      | cons => rfl

theorem textWith_leaf {place : Place} {kind : Kind} {text : String} {replace? : Nat → Option String} :
    (leaf place kind text).textWith replace? = text :=
  rendered_leaf rfl

theorem textWith_branch {place : Place} {kind : Kind} {children : List Node}
    {replace? : Nat → Option String} : (branch place kind children).textWith replace? =
      assemble (children.mapIdx fun i child => (child.gap, (replace? i).getD child.text)) := by
  rw [textWith, rendered_branch rfl]
  simp only [List.nil_append, rendered_ofChildren]

/-- A child that is not replaced stands in the text, and so does what replaces a child. -/
theorem infix_textWith {replace? : Nat → Option String} {i : Nat} (h : node.children[i]? = some child) :
    ((replace? i).getD child.text).toList <:+: (node.textWith replace?).toList := by
  cases node with
  | leaf => cases h
  | branch place kind children =>
      rw [textWith_branch]
      have hpart : (child.gap, (replace? i).getD child.text) ∈ children.mapIdx fun i child =>
          (child.gap, (replace? i).getD child.text) := by
        refine List.mem_iff_getElem?.2 ⟨i, ?_⟩
        rw [List.getElem?_mapIdx, show children[i]? = some child from h]
        rfl
      exact infix_assemble hpart

/-! ### Replacing nodes wherever they stand -/

theorem rendered_transform_eq (substitution : Substitution) (position : Position) (node : Node) :
    rendered substitution.transform position node =
      match substitution.answer? node with
      | some replacement => replacement
      | none =>
        match node with
        | .leaf _ _ text => text
        | .branch _ _ children =>
          assemble (children.map fun child => (child.gap, splice substitution child)) := by
  have ih : ∀ (position : Position) (part : Node), part.size < node.size →
      rendered substitution.transform position part = splice substitution part := fun position part _ =>
    (rendered_transform_eq substitution position part).trans
      (rendered_transform_eq substitution [] part).symm
  have hanswer : substitution.transform.answer? { node, position } = substitution.answer? node := by
    refine congrArg (substitution node) (funext fun part => ?_)
    rw [Transform.writer, Substitution.writer]
    split
    · exact ih _ _ ‹_›
    · rfl
  rw [rendered_eq, hanswer]
  cases substitution.answer? node with
  | some => rfl
  | none =>
      cases node with
      | leaf => rfl
      | branch =>
          exact congrArg assemble (mapIdx_eq_map fun _ child hchild =>
            ih _ child (size_lt_of_mem hchild))
termination_by node.size

theorem splice_eq (substitution : Substitution) (node : Node) : splice substitution node =
    match substitution.answer? node with
    | some replacement => replacement
    | none =>
      match node with
      | .leaf _ _ text => text
      | .branch _ _ children =>
        assemble (children.map fun child => (child.gap, splice substitution child)) :=
  rendered_transform_eq substitution [] node

theorem splice_of_answer {text : String} (h : substitution.answer? node = some text) :
    splice substitution node = text := by
  rw [splice_eq, h]

theorem splice_branch {place : Place} {kind : Kind} {children : List Node}
    (h : substitution.answer? (branch place kind children) = none) :
    splice substitution (branch place kind children) =
      assemble (children.map fun child => (child.gap, splice substitution child)) := by
  rw [splice_eq, h]

theorem splice_leaf {place : Place} {kind : Kind} {text : String}
    (h : substitution.answer? (leaf place kind text) = none) :
    splice substitution (leaf place kind text) = text := by
  rw [splice_eq, h]

/-- A node in which nothing is replaced is written as it is. -/
theorem splice_eq_text (h : ∀ inner, inner.AtOrInside node → substitution.Leaves inner) :
    splice substitution node = node.text :=
  rendered_eq_text fun part hpart _ => h part.node hpart _

/-- The part is kept when the nodes of a tree are replaced. -/
inductive Kept (substitution : Substitution) (part : Node) : Node → Prop where
  /-- Nothing in the part is replaced. -/
  | here (h : ∀ inner, inner.AtOrInside part → substitution.Leaves inner) :
      Kept substitution part part
  /-- It is kept in a child of a node that is not replaced. -/
  | child {node child : Node} (hnode : substitution.Leaves node) (hchild : child ∈ node.children)
      (h : Kept substitution part child) : Kept substitution part node
  /-- It is kept in a node that the replacement of the node around it writes down. -/
  | written {node inner : Node} (hinner : inner.Inside node)
      (hwritten : substitution.Writes node inner)
      (h : Kept substitution part inner) : Kept substitution part node

/-- What is kept stands in the text. -/
theorem Kept.infix_splice (h : Kept substitution part node) :
    part.text.toList <:+: (splice substitution node).toList := by
  induction h with
  | here h => exact splice_eq_text h ▸ List.infix_rfl
  | @child node child hnode hchild _ ih =>
      cases node with
      | leaf => cases hchild
      | branch place kind children =>
          rw [splice_branch hnode.answer?_eq_none]
          exact ih.trans (infix_assemble
            (List.mem_map_of_mem (f := fun child => (child.gap, splice substitution child)) hchild))
  | @written node inner hinner hwritten _ ih =>
      obtain ⟨replacement, hreplacement, hpart⟩ := hwritten (substitution.writer node)
      rw [Substitution.writer, if_pos hinner.size_lt] at hpart
      rw [splice_of_answer hreplacement]
      exact ih.trans hpart

end Node

end RouteBinder.Source
