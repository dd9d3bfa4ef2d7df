import RouteBinder.Source.Walk
import RouteBinder.Text.Lines

/-!
# RouteBinder.Source.Shape

**Shapes that analyses recognise**: expressions under wrappers, plain strings, calls, members, and
the names that patterns bind. Every function here is a view of a node; what it means that a handler
calls this or binds that is decided elsewhere.
-/

namespace RouteBinder.Source

open Text

/-- Wrappers around an expression that do not change its value. -/
def Kind.isWrapper : Kind → Bool
  | .parenthesizedExpression | .nonNullExpression | .asExpression | .satisfiesExpression => true
  | _ => false

namespace Node

/-! ### Wrappers -/

/-- The expression under wrappers; nothing when there is none. -/
def unwrap? (node : Node) : Option Node :=
  if node.kind.isWrapper then
    match _h : node.firstNamed? with
    | some inner => inner.unwrap?
    | none => none
  else some node
termination_by node.size
decreasing_by exact size_firstNamed?_lt _h

theorem size_unwrap?_le {node inner : Node} (h : node.unwrap? = some inner) :
    inner.size ≤ node.size := by
  fun_induction unwrap? node with
  | case1 node _ first found ih =>
    have := size_firstNamed?_lt found
    have := ih h
    omega
  | case2 => simp at h
  | case3 =>
    simp only [Option.some.injEq] at h
    subst h
    exact Nat.le_refl _

/-- The expression under wrappers and `await`s. -/
def unwrapAwait? (node : Node) : Option Node :=
  match _h : node.unwrap? with
  | none => none
  | some inner =>
    if inner.kind == .awaitExpression then
      match _h' : inner.firstNamed? with
      | some awaited => awaited.unwrapAwait?
      | none => none
    else some inner
termination_by node.size
decreasing_by
  have := size_unwrap?_le _h
  have := size_firstNamed?_lt _h'
  omega

/-! ### Strings -/

/-- The text between the quotes of a string, or of a template without substitutions. -/
def stringValue? (node : Node) : Option String :=
  node.unwrap?.bind fun inner =>
    match inner.kind with
    | .string => some (inside inner.text)
    | .templateString =>
      if inner.children.any (·.kind == .templateSubstitution) then none
      else some (inside inner.text)
    | _ => none

/-- The name that a key stands for: the value of a string, unless it is empty, and otherwise the
text. -/
def keyName (node : Node) : String :=
  match node.stringValue? with
  | some value => if value.isEmpty then node.text else value
  | none => node.text

/-- The child that plays `role`, under its wrappers. -/
def unwrappedField? (node : Node) (role : Role) : Option Node :=
  (node.field? role).bind unwrap?

/-! ### Calls and members -/

/-- The arguments of a call. -/
def callArguments (node : Node) : List Node :=
  match node.field? .arguments with
  | some list => list.namedChildren
  | none => []

/-- The text of the callee and the arguments, of a call or a construction. The parts of a tagged
template are no arguments. -/
def callParts? (node : Node) : Option (String × List Node) :=
  let callee :=
    match node.kind with
    | .callExpression => node.field? .function
    | .newExpression => node.field? .constructor
    | _ => none
  callee.map fun callee =>
    match node.field? .arguments with
    | some list => (callee.text, if list.kind == .arguments then list.namedChildren else [])
    | none => (callee.text, [])

/-- The object and the property name of a member access. -/
def memberParts? (node : Node) : Option (Node × String) :=
  if node.kind == .memberExpression then
    match node.field? .object, node.field? .property with
    | some object, some property => some (object, property.text)
    | _, _ => none
  else none

/-! ### Patterns -/

/-- Does an identifier bind a name when it plays `role` in a construct of this kind? Keys and default
values do not. -/
def bindsIn (parent : Kind) (role : Option Role) : Bool :=
  match parent with
  | .pairPattern => role != some .key
  | .arrayPattern | .restPattern => true
  | .objectAssignmentPattern | .assignmentPattern => role != some .right
  | _ => false

mutual
/-- The names bound below a node that stands in a construct of kind `parent`. -/
def boundNames (parent : Kind) : Node → List String
  | .leaf place kind text =>
    match kind with
    | .shorthandPropertyIdentifierPattern => [text]
    | .identifier => if bindsIn parent place.role then [text] else []
    | _ => []
  | .branch _ kind children => boundNamesOfParts kind children

def boundNamesOfParts (parent : Kind) : List Node → List String
  | [] => []
  | part :: rest => boundNames parent part ++ boundNamesOfParts parent rest
end

/-- The names that the pattern of a declaration binds. -/
def declaredNames (pattern : Node) : List String :=
  if pattern.kind == .identifier then [pattern.text] else boundNames .variableDeclarator pattern

/-- The properties that an object pattern reads, nested ones left aside. -/
def patternKeys (pattern : Node) : List String :=
  pattern.namedChildren.filterMap fun child =>
    match child.kind with
    | .shorthandPropertyIdentifierPattern => some child.text
    | .pairPattern => (child.field? .key).map fun key => trimQuotes key.text
    | .objectAssignmentPattern => (child.field? .left).map text
    | _ => none

/-! ### Blocks -/

/-- A block of statements, in its braces. -/
structure InBraces (node : Node) : Prop where
  kind_eq : node.kind = .statementBlock
  braces : ∃ opening parts closing, node.children = opening :: (parts ++ [closing]) ∧
    opening.isSymbol "\x7b" = true ∧ closing.isSymbol "\x7d" = true

/-! ### Declarations and functions -/

/-- The type that an annotation announces. -/
def annotatedType? (node : Node) : Option Node :=
  if node.kind == .typeClause then node.firstNamed? else some node

/-- The type written behind the child that plays `role`. -/
def typeField? (node : Node) (role : Role) : Option Node :=
  (node.field? role).bind annotatedType?

def isVariableDeclaration (node : Node) : Bool :=
  node.kind == .lexicalDeclaration || node.kind == .variableDeclaration

/-- The declarators of a `const`, `let` or `var`. -/
def declarators (node : Node) : List Node :=
  node.namedChildren.filter (·.kind == .variableDeclarator)

/-- The parameters of a function; an arrow may have a single one without parentheses. -/
def functionParameters (function : Node) : List Node :=
  match function.field? .parameters with
  | some list => list.namedChildren
  | none => (function.field? .parameter).toList

def isTypedParameter (param : Node) : Bool :=
  param.kind == .requiredParameter || param.kind == .optionalParameter

/-- What a parameter binds. -/
def parameterPattern? (param : Node) : Option Node :=
  if param.isTypedParameter then param.field? .pattern else some param

/-- The type that a parameter is annotated with. -/
def parameterType? (param : Node) : Option Node :=
  if param.isTypedParameter then param.typeField? .type else none

/-- The expressions that a function returns itself. -/
def returnedExpressions (function : Node) : List Node :=
  match function.field? .body with
  | none => []
  | some body =>
    if body.kind == .statementBlock then
      (body.ownNodes.filter (·.kind == .returnStatement)).filterMap firstNamed?
    else [body]

end Node

end RouteBinder.Source
