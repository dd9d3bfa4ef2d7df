import RouteBinder.Proofs.Body.Fragments
import RouteBinder.Proofs.Source.DeclaredNames

/-!
# RouteBinder.Proofs.Body.BlockNames

**Names that a body declares in its block.** The statements of a body that are classes, functions or
declarations with `const` or `let` declare names in the block that the body is (`blockNames`). Of all
statements of the grammar, the declarations of one name are called by an identifier
(`yields_statementRule_named`). So a body refers to a name that it declares in its block, unless it only takes
a variable of that name out of an object (`mem_references_or_mem_shorthandNames`); and if it does not refer to
it, it has such a variable (`declaresName_or_mem_references`).
-/

namespace RouteBinder.Grammar

open Source Parse

variable {inner : Inner} {boundary : Boundary} {kind : Kind} {items : List Item} {item : Item}

/-! ### Names of constructs -/

/-- The item is called by an identifier if it is a declaration of one name. -/
abbrev Named (item : Item) : Prop := item.node.NamedByIdentifier

/-- The item can be a part of a construct that is called by an identifier. -/
def Fits (item : Item) : Prop := item.role = some .name → item.node.isReference = true

/-- Constructs that declare no single name are called by nothing. -/
theorem named_branch (h : Node.declaresOneName kind = false) : Named (.branch kind items) := by
  intro hkind
  rw [kind_branch, h] at hkind
  cases hkind

/-- A construct is called by the part that plays the role of its name. -/
theorem named_branch_of_fits (h : ∀ item ∈ items, Fits item) : Named (.branch kind items) := by
  intro _ child hchild
  obtain ⟨item, hitem, hrole, place, rfl⟩ := exists_of_field?_branch hchild
  have hkind : (item.node.placedAt place).kind = item.node.kind := by cases item.node <;> rfl
  rw [Node.isReference, hkind]
  exact h item hitem hrole

theorem fits_of_role_none (h : item.role = none) : Fits item := by
  intro hrole
  rw [h] at hrole
  cases hrole

theorem fits_as {role : Role} (h : role ≠ .name) (item : Item) : Fits (item.as role) :=
  fun hrole => absurd (Option.some.inj hrole) h

theorem fits_of_mem_map_as {role : Role} (h : role ≠ .name) (found : Option Item) :
    ∀ item ∈ (found.map (·.as role)).toList, Fits item := by
  intro item hitem
  obtain ⟨part, -, rfl⟩ := Option.map_eq_some_iff.1 (Option.mem_toList.1 hitem)
  exact fits_as h part

theorem fits_of_mem_toList {found : Option Item} (h : ∀ item ∈ found, item.role = none) :
    ∀ item ∈ found.toList, Fits item :=
  fun item hitem => fits_of_role_none (h item (Option.mem_toList.1 hitem))

/-- A name is an identifier. -/
theorem yields_name (hkind : kind = .identifier ∨ kind = .typeIdentifier) :
    (name kind).Yields fun item => Fits (item.as .name) :=
  .last fun _ => .last fun _ => fun _ item _ h => by
    obtain ⟨-, text, hnode⟩ := yields_take _ _ _ _ h
    intro _
    show item.node.isReference = true
    rw [hnode]
    rcases hkind with rfl | rfl <;> rfl

/-! ### Declarations of one name -/

theorem fits_of_mem_signature {head signature : List Item} {name : Item} (hname : Fits (name.as .name))
    (hhead : ∀ item ∈ head, item.role = none) (hsignature : ∀ item ∈ signature, Fits item) :
    ∀ item ∈ head ++ [name.as .name] ++ signature, Fits item :=
  List.forall_mem_append.2 ⟨List.forall_mem_append.2
    ⟨fun item hitem => fits_of_role_none (hhead item hitem), List.forall_mem_singleton.2 hname⟩,
    hsignature⟩

theorem yields_callSignatureParts_fits :
    (callSignatureParts inner boundary).Yields fun items => ∀ item ∈ items, Fits item :=
  .last fun generics => .last fun parameters => .last fun result => .pure <|
    List.forall_mem_append.2 ⟨List.forall_mem_append.2
      ⟨fits_of_mem_map_as (by decide) generics, List.forall_mem_singleton.2 (fits_as (by decide) _)⟩,
      fits_of_mem_map_as (by decide) result⟩

theorem yields_functionDeclaration_named : (functionDeclaration inner).Yields Named :=
  .bind yields_functionHead fun (head, isGenerator) hhead => .bind (yields_name (Or.inl rfl))
    fun name hname => .bind yields_callSignatureParts_fits fun signature hsignature =>
      .last fun block => by
        have hstart := fits_of_mem_signature hname hhead hsignature
        split
        · exact .last fun body => .pure <| named_branch_of_fits <| List.forall_mem_append.2
            ⟨hstart, List.forall_mem_singleton.2 (fits_as (by decide) body)⟩
        · exact .last fun _ => .last fun _ => .pure (named_branch rfl)

theorem yields_classParts : (classParts inner).Yields fun items => ∀ item ∈ items, Fits item := by
  have hname : (Parse.optional (do
      Parse.require (!(← seesWord "extends") && !(← seesWord "implements"))
      name .typeIdentifier)).Yields fun found => ∀ name ∈ found, Fits (name.as .name) :=
    .optional <| .last fun _ => .last fun _ => .last fun _ => yields_name (Or.inr rfl)
  refine .bind hname fun name hname => .last fun generics => .bind (P := fun heritage =>
    ∀ item ∈ heritage, item.role = none) (.optional ?_) fun heritage hheritage => .last fun body =>
      .pure ?_
  · exact .last fun _ => .last fun _ => .last fun _ => .pure (role_branch _ _)
  · refine List.forall_mem_append.2 ⟨List.forall_mem_append.2 ⟨List.forall_mem_append.2
      ⟨?_, fits_of_mem_map_as (by decide) generics⟩, fits_of_mem_toList hheritage⟩,
      List.forall_mem_singleton.2 (fits_as (by decide) body)⟩
    intro item hitem
    obtain ⟨part, hpart, rfl⟩ := Option.map_eq_some_iff.1 (Option.mem_toList.1 hitem)
    exact hname part hpart

theorem yields_classDeclaration_named {decorators : List Item} (h : ∀ item ∈ decorators, Fits item) :
    (classDeclaration inner decorators).Yields Named :=
  .bind (.optional yields_keyword) fun _ habstract => .bind yields_keyword fun _ hword =>
    .bind yields_classParts fun _ hparts => .last fun _ => .pure <| named_branch_of_fits <|
      List.forall_mem_append.2 ⟨List.forall_mem_append.2 ⟨List.forall_mem_append.2
        ⟨h, fits_of_mem_toList habstract⟩, List.forall_mem_singleton.2 (fits_of_role_none hword)⟩,
        hparts⟩

theorem yields_decorators : Yields (many (decorator inner)) fun items => ∀ item ∈ items, Fits item :=
  .many <| .last fun _ => .last fun _ => .pure (fits_as (by decide) _)

theorem yields_enumDeclaration_named : (enumDeclaration inner).Yields Named :=
  .bind (.optional yields_keyword) fun const hconst => .bind yields_keyword fun word hword =>
    .bind (yields_name (Or.inl rfl)) fun name hname => .last fun members => .pure <|
      named_branch_of_fits <| List.forall_mem_append.2 ⟨fits_of_mem_toList hconst,
        List.forall_mem_cons.2 ⟨fits_of_role_none hword, List.forall_mem_cons.2 ⟨hname,
          List.forall_mem_singleton.2 (fits_as (by decide) _)⟩⟩⟩

theorem yields_typeAliasDeclaration_named : (typeAliasDeclaration inner).Yields Named :=
  .bind yields_keyword fun word hword => .bind (yields_name (Or.inr rfl)) fun name hname =>
    .last fun generics => .bind yields_mark fun equals hequals => .last fun type =>
      .bind yields_semicolon fun ending hending => .pure <| named_branch_of_fits <|
        List.forall_mem_append.2 ⟨List.forall_mem_append.2 ⟨List.forall_mem_append.2
          ⟨List.forall_mem_cons.2 ⟨fits_of_role_none hword, List.forall_mem_singleton.2 hname⟩,
            fits_of_mem_map_as (by decide) generics⟩,
            List.forall_mem_cons.2 ⟨fits_of_role_none hequals,
              List.forall_mem_singleton.2 (fits_as (by decide) type)⟩⟩,
            fun item hitem => fits_of_role_none (hending item hitem)⟩

theorem yields_interfaceDeclaration_named : (interfaceDeclaration inner).Yields Named := by
  refine .bind yields_keyword fun word hword => .bind (yields_name (Or.inr rfl)) fun name hname =>
    .last fun generics => .bind (P := fun parents => ∀ item ∈ parents, item.role = none)
      (.optional ?_) fun parents hparents => .last fun body => .pure <| named_branch_of_fits ?_
  · exact .last fun _ => .last fun _ => .pure (role_branch _ _)
  · exact List.forall_mem_append.2 ⟨List.forall_mem_append.2 ⟨List.forall_mem_append.2
      ⟨List.forall_mem_cons.2 ⟨fits_of_role_none hword, List.forall_mem_singleton.2 hname⟩,
        fits_of_mem_map_as (by decide) generics⟩, fits_of_mem_toList hparents⟩,
      List.forall_mem_singleton.2 (fits_as (by decide) body)⟩

/-! ### All statements -/

theorem yields_declaration_named {decorators : List Item} (h : ∀ item ∈ decorators, Fits item) :
    (declaration inner decorators).Yields Named := by
  have hvariable : (variableDeclaration inner).Yields Named :=
    .last fun _ => .last fun _ => .last fun _ => by
      split
      · exact .pure (named_branch rfl)
      · exact .pure (named_branch rfl)
  have hmodule : ∀ {word : String} {kind : Kind}, Node.declaresOneName kind = false →
      (moduleParts inner word kind).Yields Named := fun hkind =>
    .last fun _ => .last fun _ => .last fun _ => .pure (named_branch hkind)
  have halias : importAlias.Yields Named :=
    .last fun _ => .last fun _ => .last fun _ => .last fun _ => .last fun _ => .pure (named_branch rfl)
  have hambient : (ambientDeclaration inner).Yields Named :=
    .last fun _ => .last fun _ => .pure (named_branch rfl)
  exact .orElse (.orElse yields_functionDeclaration_named <|
    .orElse (yields_classDeclaration_named h) <| .orElse yields_enumDeclaration_named <|
    .orElse hvariable <| .orElse yields_typeAliasDeclaration_named <|
    .orElse yields_interfaceDeclaration_named <| .orElse (hmodule rfl) <| .orElse (hmodule rfl) halias)
    hambient

theorem yields_exportStatement_named : (exportStatement inner).Yields Named :=
  .last fun _ => .last fun _ =>
    .orElse (.last fun _ => .last fun _ => .pure (named_branch rfl)) <|
    .orElse (.last fun _ => .orElse (.last fun _ => .pure (named_branch rfl))
      (.last fun _ => .last fun _ => .pure (named_branch rfl))) <|
    .orElse (.last fun _ => .last fun _ => .last fun _ => .pure (named_branch rfl)) <|
    .orElse (.last fun _ => .last fun _ => .last fun _ => .last fun _ => .pure (named_branch rfl))
      (.last fun _ => .last fun _ => .pure (named_branch rfl))

theorem yields_statementRule_named : (statementRule inner).Yields Named := by
  have hjump : ∀ {word : String} {kind : Kind}, Node.declaresOneName kind = false →
      (jumpStatement word kind).Yields Named := fun hkind =>
    .last fun _ => .last fun ends => by
      cases ends <;> exact .last fun _ => .last fun _ => .pure (named_branch hkind)
  have himport : (importStatement inner).Yields Named :=
    .last fun _ => .last fun _ => .last fun ends => by
      cases ends <;> exact .last fun _ => .last fun _ => .pure (named_branch rfl)
  have hreturn : (returnStatement inner).Yields Named :=
    .last fun _ => .last fun ends => by
      cases ends <;> exact .last fun _ => .last fun _ => .pure (named_branch rfl)
  have hdecorated : ((do
      let decorators ← many (decorator inner)
      require !decorators.isEmpty
      classDeclaration inner decorators) : Parse Item).Yields Named :=
    .bind yields_decorators fun _ hdecorators => .last fun _ =>
      yields_classDeclaration_named hdecorators
  rw [statementRule]
  refine .orElse ?_ <| .orElse ?_ <| .orElse yields_exportStatement_named <| .orElse himport <|
    .orElse ?_ <| .orElse ?_ <| .orElse ?_ <| .orElse ?_ <| .orElse ?_ <| .orElse ?_ <|
    .orElse ?_ <| .orElse ?_ <| .orElse (hjump rfl) <| .orElse (hjump rfl) <| .orElse hreturn <|
    .orElse ?_ <| .orElse ?_ <| .orElse ?_ <| .orElse (yields_declaration_named (List.forall_mem_nil _)) <|
    .orElse hdecorated <| .orElse ?_ ?_
  -- The others gather their parts under a kind of their own.
  all_goals
    repeat refine .last fun _ => ?_
    exact .pure (named_branch rfl)

/-! ### The statements of a body -/

theorem namedByIdentifier_placedAt {node : Node} (h : node.NamedByIdentifier) (place : Place) :
    (node.placedAt place).NamedByIdentifier := by
  cases node <;> exact h

theorem yields_statementBlock_named (h : inner.statement.Yields Named) :
    (statementBlock inner).Yields fun item =>
      ∀ child ∈ item.node.children, child.NamedByIdentifier :=
  .bind yields_mark_isSymbol fun opening hopening => .bind (.many h) fun statements hstatements =>
    .bind yields_mark_isSymbol fun closing hclosing => .pure fun child hchild => by
      have hmark : ∀ {item : Item} {word : String}, item.node.isSymbol word = true → Named item := by
        intro item word hsymbol
        obtain ⟨place, hnode⟩ := Node.eq_leaf_of_isSymbol hsymbol
        show item.node.NamedByIdentifier
        rw [hnode]
        exact nofun
      rcases mem_children_branch hchild with ⟨gap, comment, rfl⟩ | ⟨item, hitem, place, -, rfl⟩
      · exact nofun
      · refine namedByIdentifier_placedAt ?_ place
        rcases List.mem_append.1 hitem with hitem | hitem
        · rcases List.mem_append.1 hitem with hitem | hitem
          · exact List.mem_singleton.1 hitem ▸ hmark hopening
          · exact hstatements item hitem
        · exact List.mem_singleton.1 hitem ▸ hmark hclosing

theorem yields_statement_named (depth : Nat) : (Inner.ofDepth depth).statement.Yields Named := by
  cases depth with
  | zero => exact .failure
  | succ depth => exact yields_statementRule_named

end RouteBinder.Grammar

namespace RouteBinder.Source

/-- Statements that declare names in the block they stand in. -/
def Node.declaresInBlock (statement : Node) : Bool :=
  match statement.kind with
  | .lexicalDeclaration | .functionDeclaration | .generatorFunctionDeclaration | .classDeclaration
  | .abstractClassDeclaration => true
  | _ => false

end RouteBinder.Source

namespace RouteBinder.Body

open Source

variable {body name : String} {fragment : Fragment}

/-- The names that a body declares in its block. -/
def Fragment.blockNames (fragment : Fragment) : List String :=
  (fragment.statements.filter Node.declaresInBlock).flatMap Node.declarationNames

/-- The names that the block of a body declares. -/
def blockNames (body : String) : List String :=
  ((Fragment.parse? body).map Fragment.blockNames).getD []

/-- The names that the patterns of a body take out of objects without renaming them. -/
def shorthandNames (body : String) : List String :=
  ((Fragment.parse? body).map fun fragment => fragment.block.shorthandNames).getD []

/-- The statements of a body that declare one name are called by identifiers. -/
theorem Fragment.namedByIdentifier_of_parse? {statement : Node} (h : Fragment.parse? body = some fragment)
    (hstatement : statement ∈ fragment.statements) : statement.NamedByIdentifier := by
  obtain ⟨node, place, hnode, hblock⟩ := Fragment.exists_of_parse?
    (P := fun block => ∀ child ∈ block.children, child.NamedByIdentifier)
    (fun depth => Grammar.yields_statementBlock_named (Grammar.yields_statement_named depth)) h
  refine hnode statement ?_
  have hchildren : (node.placedAt place).children = node.children := by cases node <;> rfl
  rw [← hchildren, ← hblock]
  exact Node.mem_of_mem_namedChildren hstatement

theorem exists_of_mem_blockNames (h : name ∈ blockNames body) :
    ∃ fragment, Fragment.parse? body = some fragment ∧ ∃ statement ∈ fragment.statements,
      statement.declaresInBlock = true ∧ name ∈ statement.declarationNames := by
  rw [blockNames] at h
  cases hparse : Fragment.parse? body with
  | none =>
      rw [hparse] at h
      cases h
  | some fragment =>
      rw [hparse] at h
      obtain ⟨statement, hstatement, hname⟩ := List.mem_flatMap.1 h
      obtain ⟨hstatement, hdeclares⟩ := List.mem_filter.1 hstatement
      exact ⟨fragment, rfl, statement, hstatement, hdeclares, hname⟩

/-- A name that a body declares in its block is written there as an identifier, or as a shorthand. -/
theorem mem_references_or_mem_shorthandNames [Recovery] (h : name ∈ blockNames body) :
    name ∈ references body ∨ name ∈ shorthandNames body := by
  obtain ⟨fragment, hparse, statement, hstatement, -, hname⟩ := exists_of_mem_blockNames h
  have hwritten := (Node.inside_of_mem_namedChildren hstatement).atOrInside.writtenNames_subset
    (Node.mem_writtenNames_of_mem_declarationNames
      (Fragment.namedByIdentifier_of_parse? hparse hstatement) hname)
  rw [references, Fragment.parse_of_parse? hparse, shorthandNames, hparse]
  exact List.mem_append.1 hwritten

/-- A name that a body declares in its block is the one of a variable, or the body refers to it. -/
theorem declaresName_or_mem_references [Recovery] (h : name ∈ blockNames body) :
    declaresName body name = true ∨ name ∈ references body := by
  obtain ⟨fragment, hparse, statement, hstatement, -, hname⟩ := exists_of_mem_blockNames h
  have hinside := (Node.inside_of_mem_namedChildren hstatement).atOrInside
  rw [declaresName, references, Fragment.parse_of_parse? hparse]
  cases hvariable : statement.isVariableDeclaration with
  | true => exact Or.inl (Node.declaresVariable_of_mem_declarationNames hinside hvariable hname)
  | false => exact Or.inr (hinside.references_subset (Node.mem_references_of_mem_declarationNames
      (Fragment.namedByIdentifier_of_parse? hparse hstatement) hvariable hname))

end RouteBinder.Body
