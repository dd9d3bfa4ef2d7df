import RouteBinder.Source.Shape

/-!
# RouteBinder.Analysis.Scope

**Names in scope.** A handler sees the names that it declares itself and, behind them, those of the
top level of its module. Blocks inside a function do not open scopes of their own: of several
declarations of a name, the first one counts.
-/

namespace RouteBinder.Analysis

open Source

/-- What kind of declaration binds a name. -/
inductive BindingKind where
  /-- A declared variable, or a class. -/
  | simple
  /-- A part of a value that is taken apart. -/
  | destructured
  | parameter
  | function
  deriving DecidableEq, Repr, Inhabited

structure Binding where
  name : String
  kind : BindingKind
  value : Option Node := none
  declaredType : Option Node := none
  function : Option Node := none
  deriving Inhabited

/-- The bindings of a function and, behind them, those of its module. -/
structure Scope where
  own : List Binding := []
  outer : List Binding := []
  deriving Inhabited

/-- Adds a binding, unless its name is bound already. -/
def bind (bindings : List Binding) (binding : Binding) : List Binding :=
  if bindings.any (·.name == binding.name) then bindings else bindings ++ [binding]

/-- The bindings of a list, the first of each name. -/
def bindAll (bindings : List Binding) : List Binding := bindings.foldl bind []

/-! ### Bindings of declarations -/

/-- The bindings of one declarator. -/
def declaratorBindings (declarator : Node) : List Binding :=
  let value := declarator.field? .value
  match declarator.field? .name with
  | none => []
  | some pattern =>
    if pattern.kind == .identifier then
      let function := value.filter (·.isFunction)
      [{ name := pattern.text
         kind := if function.isSome then .function else .simple
         value
         declaredType := declarator.typeField? .type
         function }]
    else
      pattern.declaredNames.map fun name => { name, kind := .destructured, value }

/-- The binding of a declared function or class, if it has a name. -/
def namedBinding (statement : Node) (binding : String → Binding) : List Binding :=
  let name := statement.fieldText .name
  if name.isEmpty then [] else [binding name]

/-- The bindings of a declaration that is a statement. -/
def declarationBindings (statement : Node) : List Binding :=
  match statement.kind with
  | .lexicalDeclaration | .variableDeclaration =>
    statement.declarators.flatMap declaratorBindings
  | .functionDeclaration | .generatorFunctionDeclaration =>
    namedBinding statement fun name =>
      { name, kind := .function, function := some statement }
  | .classDeclaration =>
    namedBinding statement fun name => { name, kind := .simple, value := some statement }
  | _ => []

/-- The declaration in an `export`, or the statement itself. -/
def exportedOrSelf? (statement : Node) : Option Node :=
  if statement.kind == .exportStatement then statement.field? .declaration else some statement

/-- The bindings of a statement at the top level of a module. -/
def statementBindings (statement : Node) : List Binding :=
  match exportedOrSelf? statement with
  | some declaration => declarationBindings declaration
  | none => []

/-- The bindings of a parameter. -/
def parameterBindings (param : Node) : List Binding :=
  match param.parameterPattern? with
  | none => []
  | some pattern =>
    if pattern.kind == .identifier then
      [{ name := pattern.text, kind := .parameter, declaredType := param.parameterType? }]
    else pattern.declaredNames.map fun name => { name, kind := .parameter }

/-- The declarations of a function body: variables anywhere in it, then the functions among its
statements. -/
def bodyBindings (body : Node) : List Binding :=
  let declared := (body.ownNodes.filter (·.kind == .variableDeclarator)).flatMap declaratorBindings
  let functions :=
    if body.kind == .statementBlock then
      body.namedChildren.filter fun statement =>
        statement.kind == .functionDeclaration || statement.kind == .generatorFunctionDeclaration
    else []
  declared ++ functions.flatMap declarationBindings

namespace Scope

/-! ### Scopes -/

/-- The scope at the top level of a module. -/
def ofModule (program : Node) : Scope :=
  { own := bindAll (program.namedChildren.flatMap statementBindings) }

/-- The scope inside a function of a module. -/
def ofFunction (function : Node) (module : Scope) : Scope :=
  let params := function.functionParameters.flatMap parameterBindings
  let locals := ((function.field? .body).map bodyBindings).getD []
  { own := bindAll (params ++ locals), outer := module.own }

def all (scope : Scope) : List Binding := scope.own ++ scope.outer

/-- The binding that a name refers to. -/
def lookup? (scope : Scope) (name : String) : Option Binding :=
  scope.all.find? (·.name == name)

/-! ### Names that are still to be resolved

Types are found by following names to their declarations. A name that is being followed is not
followed again, so every step leaves fewer names. -/

/-- How many bindings have names that are not listed. -/
def unlisted (scope : Scope) (names : List String) : Nat :=
  (scope.all.filter fun binding => !names.contains binding.name).length

/-- Listing the name of a binding leaves fewer. -/
theorem unlisted_cons_lt {scope : Scope} {name : String} {names : List String} {binding : Binding}
    (found : scope.lookup? name = some binding) (fresh : names.contains name = false) :
    scope.unlisted (name :: names) < scope.unlisted names := by
  have named : binding.name = name := by simpa using List.find?_some found
  have member : binding ∈ scope.all := List.mem_of_find?_eq_some found
  have split : (scope.all.filter fun b => !(name :: names).contains b.name) =
      (scope.all.filter fun b => !names.contains b.name).filter fun b => b.name != name := by
    rw [List.filter_filter]
    congr 1
    funext b
    simp only [List.contains_cons, Bool.not_or, bne]
  unfold unlisted
  rw [split]
  have kept : binding ∈ scope.all.filter fun b => !names.contains b.name := by
    rw [List.mem_filter]
    exact ⟨member, by rw [named, fresh]; rfl⟩
  refine Nat.lt_of_le_of_ne (List.length_filter_le _ _) fun same => ?_
  have := List.length_filter_eq_length_iff.1 same binding kept
  simp [named] at this

end Scope

end RouteBinder.Analysis
