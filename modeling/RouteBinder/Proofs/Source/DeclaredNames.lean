import RouteBinder.Proofs.Source.Inside
import RouteBinder.Source.Names

/-!
# RouteBinder.Proofs.Source.DeclaredNames

**Where declared names are written.** A name that a pattern binds stands in it as a leaf: as an identifier,
which counts as a reference to the name, or as a shorthand of an object pattern, which does not
(`mem_writtenNames_of_mem_boundNames`). So a variable declaration refers to the names that it declares, those
that it takes apart by shorthands aside. A declaration of one name refers to it as soon as an identifier is
what it is called by (`Node.NamedByIdentifier`).
-/

namespace RouteBinder.Source.Node

variable {node part statement : Node} {name : String}

/-! ### Names in a construct -/

/-- The names that shorthands in the patterns of a construct bind. -/
def shorthandNames (node : Node) : List String :=
  (node.preorder.filter (·.kind == .shorthandPropertyIdentifierPattern)).map text

/-- The names that a construct has as identifiers or as shorthands. -/
def writtenNames (node : Node) : List String := node.references ++ node.shorthandNames

theorem mem_preorder_self (node : Node) : node ∈ node.preorder := by
  cases node <;> rw [preorder]
  · exact List.mem_singleton_self _
  · exact List.mem_cons_self

theorem preorderOfParts_eq_flatMap (parts : List Node) :
    preorderOfParts parts = parts.flatMap preorder := by
  induction parts with
  | nil => rfl
  | cons part rest ih => rw [preorderOfParts, ih, List.flatMap_cons]

theorem preorder_subset_of_mem (h : part ∈ node.children) : part.preorder ⊆ node.preorder := by
  intro inner hinner
  cases node with
  | leaf => cases h
  | branch =>
      rw [preorder, preorderOfParts_eq_flatMap]
      exact List.mem_cons_of_mem _ (List.mem_flatMap.2 ⟨part, h, hinner⟩)

/-- What stands inside a construct has only nodes of it. -/
theorem AtOrInside.preorder_subset (h : part.AtOrInside node) : part.preorder ⊆ node.preorder := by
  induction h with
  | refl => exact fun _ h => h
  | tail _ hchild ih => exact List.Subset.trans ih (preorder_subset_of_mem hchild)

theorem AtOrInside.texts_subset (h : part.AtOrInside node) (p : Node → Bool) :
    (part.preorder.filter p).map text ⊆ (node.preorder.filter p).map text := by
  refine List.map_subset _ fun inner hinner => ?_
  obtain ⟨hinner, hp⟩ := List.mem_filter.1 hinner
  exact List.mem_filter.2 ⟨h.preorder_subset hinner, hp⟩

theorem AtOrInside.references_subset (h : part.AtOrInside node) :
    part.references ⊆ node.references :=
  h.texts_subset isReference

theorem AtOrInside.writtenNames_subset (h : part.AtOrInside node) :
    part.writtenNames ⊆ node.writtenNames := by
  intro name hname
  rcases List.mem_append.1 hname with hname | hname
  · exact List.mem_append_left _ (h.references_subset hname)
  · exact List.mem_append_right _ (h.texts_subset _ hname)

theorem text_mem_references (h : node.isReference = true) : node.text ∈ node.references :=
  List.mem_map_of_mem (List.mem_filter.2 ⟨mem_preorder_self node, h⟩)

theorem text_mem_shorthandNames (h : node.kind = .shorthandPropertyIdentifierPattern) :
    node.text ∈ node.shorthandNames :=
  List.mem_map_of_mem (List.mem_filter.2 ⟨mem_preorder_self node, beq_iff_eq.2 h⟩)

/-! ### Names of patterns -/

mutual
/-- What a pattern binds is written in it. -/
theorem mem_writtenNames_of_mem_boundNames : ∀ {parent : Kind} {node : Node},
    name ∈ boundNames parent node → name ∈ node.writtenNames
  | parent, .leaf place kind text, h => by
      rw [boundNames.eq_def] at h
      dsimp only at h
      split at h
      · rw [List.mem_singleton.1 h]
        exact List.mem_append_right _ (text_mem_shorthandNames rfl)
      · split at h
        · rw [List.mem_singleton.1 h]
          exact List.mem_append_left _ (text_mem_references rfl)
        · cases h
      · cases h
  | _, .branch place kind children, h => by
      rw [boundNames] at h
      obtain ⟨part, hpart, hname⟩ := exists_of_mem_boundNamesOfParts h
      exact (Inside.of_mem hpart).atOrInside.writtenNames_subset hname

theorem exists_of_mem_boundNamesOfParts : ∀ {parent : Kind} {parts : List Node},
    name ∈ boundNamesOfParts parent parts → ∃ part ∈ parts, name ∈ part.writtenNames
  | _, [], h => by cases h
  | _, first :: rest, h => by
      rw [boundNamesOfParts] at h
      rcases List.mem_append.1 h with h | h
      · exact ⟨first, List.mem_cons_self, mem_writtenNames_of_mem_boundNames h⟩
      · obtain ⟨part, hpart, hname⟩ := exists_of_mem_boundNamesOfParts h
        exact ⟨part, List.mem_cons_of_mem _ hpart, hname⟩
end

theorem mem_writtenNames_of_mem_declaredNames (h : name ∈ node.declaredNames) :
    name ∈ node.writtenNames := by
  rw [declaredNames] at h
  split at h
  · rename_i hkind
    rw [List.mem_singleton.1 h]
    refine List.mem_append_left _ (text_mem_references ?_)
    rw [isReference, beq_iff_eq.1 hkind]
  · exact mem_writtenNames_of_mem_boundNames h

/-! ### Names of statements -/

theorem mem_writtenNames_of_mem_declaratorNames (h : name ∈ node.declaratorNames) :
    name ∈ node.writtenNames := by
  rw [declaratorNames] at h
  split at h
  · rename_i pattern hpattern
    exact (inside_of_field? hpattern).atOrInside.writtenNames_subset
      (mem_writtenNames_of_mem_declaredNames h)
  · cases h

/-- A declaration of one name is called by an identifier. -/
def NamedByIdentifier (node : Node) : Prop :=
  declaresOneName node.kind = true →
    ∀ child, node.field? .name = some child → child.isReference = true

/-- What declares a name that is no variable refers to it. -/
theorem mem_references_of_mem_declarationNames (hnamed : statement.NamedByIdentifier)
    (hvariable : statement.isVariableDeclaration = false) (h : name ∈ statement.declarationNames) :
    name ∈ statement.references := by
  rw [declarationNames, hvariable, if_neg Bool.false_ne_true] at h
  split at h
  · rename_i hkind
    dsimp only at h
    split at h
    · cases h
    · rename_i hne
      rw [List.mem_singleton.1 h]
      cases hfield : statement.field? .name with
      | none =>
          rw [fieldText, hfield] at hne
          exact absurd rfl hne
      | some child =>
          rw [fieldText, hfield]
          exact (inside_of_field? hfield).atOrInside.references_subset
            (text_mem_references (hnamed hkind child hfield))
  · cases h

/-- The declarator of a variable stands in its declaration. -/
theorem exists_declarator_of_mem_declarationNames (hvariable : statement.isVariableDeclaration = true)
    (h : name ∈ statement.declarationNames) :
    ∃ declarator : Node, declarator.Inside statement ∧ declarator.kind = .variableDeclarator ∧
      name ∈ declarator.declaratorNames := by
  rw [declarationNames, if_pos hvariable] at h
  obtain ⟨declarator, hdeclarator, hname⟩ := List.mem_flatMap.1 h
  exact ⟨declarator, inside_of_mem_declarators hdeclarator,
    beq_iff_eq.1 (List.mem_filter.1 hdeclarator).2, hname⟩

/-- A variable that a statement of the construct declares is found in it. -/
theorem declaresVariable_of_mem_declarationNames (hinside : statement.AtOrInside node)
    (hvariable : statement.isVariableDeclaration = true) (h : name ∈ statement.declarationNames) :
    node.declaresVariable name = true := by
  obtain ⟨declarator, hdeclarator, hkind, hname⟩ :=
    exists_declarator_of_mem_declarationNames hvariable h
  refine List.any_eq_true.2 ⟨declarator, ?_, ?_⟩
  · exact (hdeclarator.atOrInside.trans hinside).preorder_subset (mem_preorder_self declarator)
  · rw [hkind, List.contains_iff_mem.2 hname]
    rfl

/-- What a statement declares is written in it. -/
theorem mem_writtenNames_of_mem_declarationNames (hnamed : statement.NamedByIdentifier)
    (h : name ∈ statement.declarationNames) : name ∈ statement.writtenNames := by
  cases hvariable : statement.isVariableDeclaration with
  | false => exact List.mem_append_left _ (mem_references_of_mem_declarationNames hnamed hvariable h)
  | true =>
      obtain ⟨declarator, hdeclarator, -, hname⟩ :=
        exists_declarator_of_mem_declarationNames hvariable h
      exact hdeclarator.atOrInside.writtenNames_subset (mem_writtenNames_of_mem_declaratorNames hname)

end RouteBinder.Source.Node
