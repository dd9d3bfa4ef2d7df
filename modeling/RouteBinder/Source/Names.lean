import RouteBinder.Source.Shape

/-!
# RouteBinder.Source.Names

**Names that constructs declare and refer to.** `Node.statementNames` lists what a statement
declares, looking through an `export`; `Node.references` lists what a construct refers to anywhere
in it. Neither knows of scopes: a reference is an identifier with that text.
-/

namespace RouteBinder.Source

namespace Node

/-- Identifiers that refer to something. -/
def isReference (node : Node) : Bool :=
  match node.kind with
  | .identifier | .typeIdentifier | .shorthandPropertyIdentifier => true
  | _ => false

/-- The names that a construct refers to. -/
def references (node : Node) : List String :=
  (node.preorder.filter isReference).map text

/-- Declarations of one name. -/
def declaresOneName (kind : Kind) : Bool :=
  match kind with
  | .functionDeclaration | .generatorFunctionDeclaration | .classDeclaration
  | .abstractClassDeclaration | .typeAliasDeclaration | .interfaceDeclaration
  | .enumDeclaration => true
  | _ => false

/-- The names that a declarator binds. -/
def declaratorNames (declarator : Node) : List String :=
  match declarator.field? .name with
  | some pattern => pattern.declaredNames
  | none => []

/-- The names that a declaration declares. -/
def declarationNames (declaration : Node) : List String :=
  if declaration.isVariableDeclaration then declaration.declarators.flatMap declaratorNames
  else if declaresOneName declaration.kind then
    let name := declaration.fieldText .name
    if name.isEmpty then [] else [name]
  else []

/-- The names that a statement declares. -/
def statementNames (statement : Node) : List String :=
  if statement.kind == .exportStatement then
    match statement.field? .declaration with
    | some declaration => declaration.declarationNames
    | none => []
  else statement.declarationNames

/-- Does a variable declaration anywhere in the construct bind the name? -/
def declaresVariable (node : Node) (name : String) : Bool :=
  node.preorder.any fun declarator =>
    declarator.kind == .variableDeclarator && declarator.declaratorNames.contains name

end Node

end RouteBinder.Source
