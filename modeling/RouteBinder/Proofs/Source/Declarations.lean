import RouteBinder.Source.Names

/-!
# RouteBinder.Proofs.Source.Declarations

**Declarations as syntax.** `Node.binders` finds the declarators of a variable in some statements, nested
blocks included and nested functions left out, and `Node.constant` is the syntax of `const name = source;`,
which binds its name once (`binders_constant`).
-/

namespace RouteBinder.Source.Node

variable {name source : String} {node statement : Node} {statements : List Node}

/-! ### Declarations of one variable -/

/-- Is the node a declarator that binds the name? -/
def binds (name : String) (node : Node) : Bool :=
  node.kind == .variableDeclarator && node.declaratorNames.contains name

/-- The declarators of a variable in statements, those in nested functions left out. -/
def binders (name : String) (statements : List Node) : List Node :=
  (ownNodesOfParts statements).filter (binds name)

/-- Is the statement a declaration of the variable, and of nothing else? -/
def declaresAlone (name : String) (statement : Node) : Bool :=
  statement.isVariableDeclaration && statement.declarationNames == [name]

/-- Does the declarator take its value from the name `source`? -/
def takesName (source : String) (declarator : Node) : Bool :=
  (declarator.field? .value).any fun value => value.kind == .identifier && value.text == source

/-- The syntax of `name = source` in a declaration. -/
def initialized (name source : String) : Node :=
  .branch { gap := " " } .variableDeclarator
    [.leaf { role := some .name } .identifier name, .leaf { gap := " " } .symbol "=",
      .leaf { gap := " ", role := some .value } .identifier source]

/-- The syntax of `const name = source;`. -/
def constant (place : Place) (name source : String) : Node :=
  .branch place .lexicalDeclaration
    [.leaf { role := some .kind } .symbol "const", initialized name source, .leaf {} .symbol ";"]

theorem text_constant (place : Place) :
    (constant place name source).text = "const " ++ name ++ " = " ++ source ++ ";" := by
  rw [← String.toList_inj]
  simp [constant, initialized, text, textOfParts, gap, Node.place]

theorem mem_ownNodes_self (node : Node) : node ∈ node.ownNodes := by
  cases node <;> rw [ownNodes]
  · exact List.mem_singleton_self _
  · exact List.mem_cons_self

/-- A construct that is no function is not left out of the function around it. -/
theorem opensFunction_of_kind_ne (hfunction : node.kind.isFunction = false)
    (hsymbol : node.kind ≠ .symbol) : node.opensFunction = false := by
  rw [opensFunction, isFunction, hfunction, Bool.false_or]
  unfold isSymbol
  split
  · exact absurd rfl hsymbol
  · rfl

/-- The children that open no function belong to a construct itself. -/
theorem mem_ownNodes_of_mem_children {child : Node} (h : child ∈ node.children)
    (hfunction : child.opensFunction = false) : child ∈ node.ownNodes := by
  have hparts : ∀ {parts : List Node}, child ∈ parts → child ∈ ownNodesOfParts parts := by
    intro parts
    induction parts with
    | nil => exact id
    | cons first rest ih =>
        intro h
        rw [ownNodesOfParts]
        rcases List.mem_cons.1 h with rfl | h
        · rw [hfunction, if_neg Bool.false_ne_true]
          exact List.mem_append_left _ (mem_ownNodes_self child)
        · split
          · exact ih h
          · exact List.mem_append_right _ (ih h)
  cases node with
  | leaf => cases h
  | branch =>
      rw [ownNodes]
      exact List.mem_cons_of_mem _ (hparts h)

theorem references_constant (place : Place) :
    (constant place name source).references = [name, source] := rfl

theorem binders_nil : binders name [] = [] := rfl

theorem binders_cons : binders name (statement :: statements) =
    binders name [statement] ++ binders name statements := by
  simp only [binders, ownNodesOfParts]
  split
  · rfl
  · rw [List.append_nil, List.filter_append]

theorem binders_of_not_function (h : statement.opensFunction = false) :
    binders name [statement] = statement.ownNodes.filter (binds name) := by
  rw [binders, ownNodesOfParts, if_neg (by rw [h]; exact Bool.false_ne_true), ownNodesOfParts,
    List.append_nil]

theorem mem_binders : node ∈ binders name statements ↔
    ∃ statement ∈ statements, node ∈ binders name [statement] := by
  induction statements with
  | nil => simp [binders_nil]
  | cons first rest ih =>
      rw [binders_cons, List.mem_append, ih]
      simp

/-- A constant binds its name once, to the name that it takes. -/
theorem binders_constant (place : Place) :
    binders name [constant place name source] = [initialized name source] := by
  have hbinds : binds name (initialized name source) = true :=
    List.contains_iff_mem.2 (List.mem_singleton_self name)
  -- Of the nodes in the statement, the first two are no declarators.
  show List.filter (binds name) (initialized name source ::
    [.leaf { role := some .name } .identifier name, .leaf { gap := " " } .symbol "=",
      .leaf { gap := " ", role := some .value } .identifier source, .leaf {} .symbol ";"]) = _
  rw [List.filter_cons_of_pos hbinds]
  rfl

theorem takesName_initialized : (initialized name source).takesName source = true := by
  show (Kind.identifier == Kind.identifier && source == source) = true
  rw [beq_self_eq_true, beq_self_eq_true]
  rfl

mutual
/-- The nodes of one function are nodes of the tree. -/
theorem mem_preorder_of_mem_ownNodes : ∀ {node part : Node}, part ∈ node.ownNodes →
    part ∈ node.preorder
  | .leaf .., part, h => h
  | .branch _ _ children, part, h => by
      rw [ownNodes] at h
      rw [preorder]
      rcases List.mem_cons.1 h with rfl | h
      · exact List.mem_cons_self
      · exact List.mem_cons_of_mem _ (mem_preorderOfParts_of_mem_ownNodesOfParts h)

theorem mem_preorderOfParts_of_mem_ownNodesOfParts : ∀ {parts : List Node} {part : Node},
    part ∈ ownNodesOfParts parts → part ∈ preorderOfParts parts
  | [], part, h => h
  | first :: rest, part, h => by
      rw [ownNodesOfParts] at h
      rw [preorderOfParts, List.mem_append]
      split at h
      · exact Or.inr (mem_preorderOfParts_of_mem_ownNodesOfParts h)
      · rcases List.mem_append.1 h with h | h
        · exact Or.inl (mem_preorder_of_mem_ownNodes h)
        · exact Or.inr (mem_preorderOfParts_of_mem_ownNodesOfParts h)
end

/-- A variable of a block is found in it. -/
theorem declaresVariable_of_binders_ne_nil (h : binders name node.children ≠ []) :
    node.declaresVariable name = true := by
  obtain ⟨declarator, hmem⟩ := List.exists_mem_of_ne_nil _ h
  obtain ⟨hmem, hbinds⟩ := List.mem_filter.1 hmem
  refine List.any_eq_true.2 ⟨declarator, ?_, hbinds⟩
  cases node with
  | leaf => cases hmem
  | branch =>
      rw [preorder]
      exact List.mem_cons_of_mem _ (mem_preorderOfParts_of_mem_ownNodesOfParts hmem)

/-- What declares the variable alone binds it. -/
theorem binders_ne_nil_of_declaresAlone (h : statement.declaresAlone name = true) :
    binders name [statement] ≠ [] := by
  obtain ⟨hvariable, hnames⟩ := Bool.and_eq_true_iff.1 h
  have hmem : name ∈ statement.declarators.flatMap declaratorNames := by
    rw [declarationNames, if_pos hvariable] at hnames
    rw [beq_iff_eq.1 hnames]
    exact List.mem_singleton_self name
  obtain ⟨declarator, hdeclarator, hname⟩ := List.mem_flatMap.1 hmem
  obtain ⟨hnamed, hkind⟩ := List.mem_filter.1 hdeclarator
  have hfunction : statement.opensFunction = false := by
    rw [isVariableDeclaration, Bool.or_eq_true, beq_iff_eq, beq_iff_eq] at hvariable
    rcases hvariable with h | h
    · exact opensFunction_of_kind_ne (by rw [h]; rfl) (by rw [h]; decide)
    · exact opensFunction_of_kind_ne (by rw [h]; rfl) (by rw [h]; decide)
  refine List.ne_nil_of_mem (a := declarator) ?_
  rw [binders_of_not_function hfunction, List.mem_filter, binds, hkind,
    List.contains_iff_mem.2 hname]
  have hkind := beq_iff_eq.1 hkind
  exact ⟨mem_ownNodes_of_mem_children (mem_of_mem_namedChildren hnamed)
    (opensFunction_of_kind_ne (by rw [hkind]; rfl) (by rw [hkind]; decide)), rfl⟩

end RouteBinder.Source.Node
