import RouteBinder.Source.Shape
import RouteBinder.ImportSpec
import RouteBinder.Handler

/-!
# RouteBinder.Analysis.Discovery

**What a module exports and imports.** A handler is an exported function, or an exported variable
that is initialised with one, whose name is a verb. The first implementation of a verb is its
handler; every other declaration of the verb can only add a return type that the first lacks:

* a later implementation adds its own, if no earlier one had any;
* an overload signature adds its own when no implementation had any.
-/

namespace RouteBinder.Analysis

open Source FileSystem

/-- A function that implements a verb. -/
structure HandlerSite where
  verb : String
  function : Node
  returnType : Option String := none
  deriving Inhabited

/-! ### Handlers -/

/-- The text of the return type that a function declares. -/
def declaredReturnType? (function : Node) : Option String :=
  present ((function.typeField? .returnType).map fun type => Text.trim type.text)

/-- An exported declaration of a name. -/
inductive ExportedDeclaration where
  /-- A signature without a body. -/
  | overload (name : String) (node : Node)
  | implementation (name : String) (function : Node)
  deriving Inhabited

/-- Functions that a variable can be initialised with to become a handler. -/
def isHandlerValue (value : Node) : Bool :=
  value.kind == .arrowFunction || value.kind == .functionExpression

/-- The functions that a statement exports. -/
def exportedDeclarations (statement : Node) : List ExportedDeclaration :=
  if statement.kind == .exportStatement then
    match statement.field? .declaration with
    | none => []
    | some declaration =>
      match declaration.kind with
      | .functionSignature => [.overload (declaration.fieldText .name) declaration]
      | .functionDeclaration | .generatorFunctionDeclaration =>
        [.implementation (declaration.fieldText .name) declaration]
      | .lexicalDeclaration | .variableDeclaration =>
        declaration.declarators.filterMap fun declarator =>
          ((declarator.field? .value).filter isHandlerValue).map fun function =>
            .implementation (declarator.fieldText .name) function
      | _ => []
  else []

/-- Records an implementation: the first one of a verb counts, and a later one adds its return type
if none is known. -/
def addImplementation (sites : List HandlerSite) (verb : String) (function : Node) :
    List HandlerSite :=
  let returnType := declaredReturnType? function
  if sites.any (·.verb == verb) then
    sites.map fun site =>
      if site.verb == verb && site.returnType.isNone then { site with returnType } else site
  else sites ++ [⟨verb, function, returnType⟩]

/-- The implementations of verbs, in the order of the first ones. -/
def implementations (declarations : List ExportedDeclaration) : List HandlerSite :=
  declarations.foldl (fun sites declaration =>
    match declaration with
    | .implementation name function =>
      if verbs.contains name && (function.field? .body).isSome then
        addImplementation sites name function
      else sites
    | .overload .. => sites) []

/-- The return type of the first overload of a verb that has one. -/
def overloadReturnType? (declarations : List ExportedDeclaration) (verb : String) :
    Option String :=
  declarations.findSome? fun declaration =>
    match declaration with
    | .overload name node => if name == verb then declaredReturnType? node else none
    | .implementation .. => none

/-- The handlers of a module. -/
def discoverHandlers (program : Node) : List HandlerSite :=
  let declarations := program.namedChildren.flatMap exportedDeclarations
  (implementations declarations).map fun site =>
    { site with
      returnType := site.returnType <|> overloadReturnType? declarations site.verb }

/-! ### Imports -/

/-- A name in an import clause, which may be written as a string. -/
def importedName (specifier : Node) : NamedImport :=
  { name := Text.trimQuotes (specifier.fieldText .name)
    localAlias := (specifier.field? .alias).map Node.text }

/-- Adds a part of an import clause. -/
def addClausePart (spec : ImportSpec) (part : Node) : ImportSpec :=
  match part.kind with
  | .identifier => { spec with defaultName := some part.text }
  | .namespaceImport =>
    { spec with namespaceName := some ((part.firstNamed?.map Node.text).getD "") }
  | .namedImports =>
    { spec with
      named := spec.named ++
        (part.namedChildren.filter (·.kind == .importSpecifier)).map importedName }
  | _ => spec

/-- The import that a statement declares; imports without a clause bind nothing. -/
def importSpec? (origin : Option Path) (statement : Node) : Option ImportSpec :=
  if statement.kind == .importStatement then
    match (statement.field? .source).bind Node.stringValue?,
        statement.namedChildren.find? (·.kind == .importClause) with
    | some specifier, some clause =>
      let typeOnly := statement.children.any (·.isSymbol "type")
      some (clause.namedChildren.foldl addClausePart { specifier, typeOnly, origin })
    | _, _ => none
  else none

/-- The imports of a module. -/
def importSpecs (program : Node) (origin : Option Path) : List ImportSpec :=
  program.namedChildren.filterMap (importSpec? origin)

end RouteBinder.Analysis
