import RouteBinder.Analysis.Schema
import RouteBinder.Analysis.Usage

/-!
# RouteBinder.Analysis.Typing

**Types of expressions**, as far as the syntax shows them. Literals, operators and well-known methods
have types of their own; names are followed to their declarations and calls to the `return` of the
function that they call. Everything else is `unknown`.

A name that is already being followed is `unknown`. A call that comes back to a function which is
being typed has no answer at all: its type would be its own type. This is reported as a
`CircularReturn`, and it is the only way in which typing can fail.

The rules are written over the types of smaller nodes (`self`), of names (`variable`) and of the
functions that names are bound to (`returned`); `typeOf` ties the knot.
-/

namespace RouteBinder.Analysis

open Source

/-- A function whose return type depends on itself. -/
structure CircularReturn where
  function : String
  deriving DecidableEq, Repr, Inhabited

/-- The result of typing. -/
abbrev Typed := Except CircularReturn TypeExpr

namespace Typing

/-! ### Vocabulary -/

/-- Methods of strings that return something else. -/
def otherStringMethods : List String :=
  ["split", "startsWith", "endsWith", "localeCompare", "match", "matchAll", "charCodeAt",
    "codePointAt", "search"]

/-- Methods that return a string. -/
def stringResultMethods : List String :=
  stringMethods.filter (!otherStringMethods.contains ·) ++
  ["toString", "toFixed", "toISOString", "toJSON", "toLocaleString", "toDateString", "join",
    "concat"]

def booleanResultMethods : List String :=
  ["includes", "some", "every", "startsWith", "endsWith", "has", "test", "isArray"]

def numberResultMethods : List String :=
  ["indexOf", "lastIndexOf", "push", "unshift", "findIndex", "findLastIndex", "charCodeAt",
    "getTime", "localeCompare", "search"]

/-- Methods of arrays that answer with an array of the same type. -/
def sameArrayMethods : List String :=
  ["slice", "filter", "sort", "reverse", "concat", "toSorted", "toReversed"]

/-- Methods of arrays that answer with an element, if there is one. -/
def elementMethods : List String := ["find", "findLast", "at", "pop", "shift"]

def numberFunctions : List String :=
  ["parseInt", "parseFloat", "Number", "Date.now", "Math.floor", "Math.ceil", "Math.round",
    "Math.random", "Math.max", "Math.min", "Math.abs"]

def stringFunctions : List String :=
  ["String", "JSON.stringify", "crypto.randomUUID", "encodeURIComponent", "decodeURIComponent"]

def comparisonOperators : List String := ["<", ">", "<=", ">=", "instanceof", "in"]

/-! ### Rules -/

section Rules

variable (scope : Scope) (self : Node → Typed) (variable_ : String → Typed)
  (returned : String → Typed)

/-- The type of an expression that may be missing. -/
def optionalType : Option Node → Typed
  | some node => self node
  | none => .ok .unknown

/-- What a function returns: the annotated type, the type of the expression it consists of, or the
type of its only `return`. -/
def returnRule (function : Node) : Typed :=
  match function.field? .returnType, function.field? .body with
  | some clause, _ => .ok (writtenType clause)
  | none, none => .ok .unknown
  | none, some body =>
    if body.kind == .statementBlock then
      match body.ownNodes.filter (·.kind == .returnStatement) with
      | [only] => optionalType self only.firstNamed?
      | _ => .ok .unknown
    else self body

/-- The fields that a member of an object literal adds. -/
def memberFields (member : Node) : Except CircularReturn (List Field) :=
  match member.kind with
  | .pair =>
    match member.field? .key with
    | none => .ok []
    | some key =>
      if key.kind == .computedPropertyName then .ok []
      else do
        let type ← optionalType self (member.field? .value)
        return [⟨key.keyName, type, false⟩]
  | .shorthandPropertyIdentifier => do
    let type ← variable_ member.text
    return [⟨member.text, type, false⟩]
  | .spreadElement => do
    let type ← optionalType self member.firstNamed?
    return type.fields
  | _ => .ok []

/-- The type of an object literal. -/
def objectRule (node : Node) : Typed := do
  let fields ← node.namedChildren.mapM (memberFields self variable_)
  return .recordOf fields.flatten

/-- The type of an array literal; spread elements tell nothing. -/
def arrayRule (node : Node) : Typed := do
  let types ← (node.namedChildren.filter (·.kind != .spreadElement)).mapM self
  return .array (.unionOf types)

/-- The type of a constructed object is its class. -/
def constructionRule (node : Node) : TypeExpr :=
  let className := node.fieldText .constructor
  match node.field? .typeArguments with
  | some arguments => .named (className ++ arguments.text)
  | none =>
    if className == "ReadableStream" then .named "ReadableStream<any>"
    else if className.isEmpty then .unknown
    else .named className

/-- The type of a method call on a value. -/
def methodRule (receiver : TypeExpr) (method : String) (args : List Node) : Typed :=
  let otherwise : TypeExpr :=
    if stringResultMethods.contains method then .string
    else if receiver == .string && (method == "slice" || method == "at") then .string
    else .unknown
  match receiver with
  | .array element =>
    if sameArrayMethods.contains method then .ok receiver
    else if elementMethods.contains method then .ok (.unionOf [element, .undefined])
    else
      match method, args with
      | "map", function :: _ | "flatMap", function :: _ =>
        if function.isFunction then (returnRule self function).map .array
        else .ok (.array .unknown)
      | _, _ => .ok otherwise
  | _ => .ok otherwise

/-- The type of a call of a member. -/
def memberCallRule (object : Node) (method : String) (args : List Node) : Typed :=
  let parsed? :=
    if method == "parse" || method == "parseAsync" then schemaType? scope object else none
  match parsed? with
  | some type =>
    .ok (if method == "parse" then type else .named ("Promise<" ++ type.render ++ ">"))
  | none =>
    if booleanResultMethods.contains method then .ok .boolean
    else if numberResultMethods.contains method then .ok .number
    else if method == "split" then .ok (.array .string)
    else do
      let receiver ← self object
      methodRule self receiver method args

/-- The type of a call. -/
def callRule (node : Node) : Typed :=
  let callee := node.fieldText .function
  let args := node.callArguments
  if numberFunctions.contains callee then .ok .number
  else if stringFunctions.contains callee then .ok .string
  else if callee == "Boolean" then .ok .boolean
  else if callee == "Array.from" then
    match args with
    | _ :: mapper :: _ =>
      if mapper.isFunction then (returnRule self mapper).map .array else .ok (.array .unknown)
    | _ => .ok (.array .unknown)
  else
    match node.unwrappedField? .function with
    | none => .ok .unknown
    | some inner =>
      if inner.kind == .identifier then returned callee
      else
        match inner.memberParts? with
        | some (object, method) => memberCallRule scope self object method args
        | none => .ok .unknown

/-- The type of a property of a value. -/
def memberRule (node : Node) : Typed :=
  match node.memberParts? with
  | none => .ok .unknown
  | some (object, name) => do
    match ← self object, name with
    | .array _, "length" => return .number
    | .primitive "string", "length" => return .number
    | receiver, name =>
      match receiver.field? name with
      | some field =>
        return if field.optional then .unionOf [field.type, .undefined] else field.type
      | none => return .unknown

/-- The type of an element or of a property named by a string. -/
def subscriptRule (node : Node) : Typed := do
  match ← optionalType self (node.field? .object) with
  | .array element => return element
  | object =>
    let key? := (node.field? .index).bind Node.stringValue?
    return ((key?.bind object.field?).map FieldOf.type).getD .unknown

/-- The type of a binary operation. -/
def binaryRule (node : Node) : Typed :=
  let operator := node.fieldText .operator
  if equalityOperators.contains operator || comparisonOperators.contains operator then
    .ok .boolean
  else do
    let left ← optionalType self (node.field? .left)
    let right ← optionalType self (node.field? .right)
    if operator == "+" then
      if left == .string || right == .string then return .string
      else if left == .number || right == .number then return .number
      else return .unknown
    else if arithmeticOperators.contains operator then return .number
    else
      match operator with
      | "&&" => return right
      | "||" | "??" => return .unionOf [left, right]
      | _ => return .unknown

/-- The type of a unary operation. -/
def unaryType (operator : String) : TypeExpr :=
  match operator with
  | "!" => .boolean
  | "-" | "+" | "~" => .number
  | "typeof" => .string
  | "void" => .undefined
  | _ => .unknown

/-- What `await` makes of a promise. -/
def awaited (type : TypeExpr) : TypeExpr :=
  match type with
  | .named text =>
    match TypeExpr.unwrapGeneric? text "Promise" with
    | some inner => .named inner
    | none => type
  | _ => type

/-- The type of an expression. -/
def expressionRule (node : Node) : Typed :=
  match node.kind with
  | .string | .templateString => .ok .string
  | .number | .updateExpression => .ok .number
  | .trueLiteral | .falseLiteral => .ok .boolean
  | .nullLiteral => .ok .null
  | .undefinedLiteral => .ok .undefined
  | .parenthesizedExpression | .nonNullExpression | .satisfiesExpression =>
    optionalType self node.firstNamed?
  | .asExpression =>
    match node.namedChildren with
    | [] => .ok .unknown
    | [constant] => self constant
    | _ :: type :: types => .ok (writtenType ((type :: types).getLast (by simp)))
  | .awaitExpression => (optionalType self node.firstNamed?).map awaited
  | .identifier => variable_ node.text
  | .object => objectRule self variable_ node
  | .array => arrayRule self node
  | .newExpression => .ok (constructionRule node)
  | .callExpression => callRule scope self returned node
  | .memberExpression => memberRule self node
  | .subscriptExpression => subscriptRule self node
  | .binaryExpression => binaryRule self node
  | .ternaryExpression => do
    let consequence ← optionalType self (node.field? .consequence)
    let alternative ← optionalType self (node.field? .alternative)
    return .unionOf [consequence, alternative]
  | .unaryExpression => .ok (unaryType (node.fieldText .operator))
  | _ => .ok .unknown

end Rules

/-! ### Following names -/

/-- The type of an expression, while the names in `following` are being followed and, since the last
of them, the functions in `entered` are being typed. -/
def typeWhile (scope : Scope) (following entered : List String) (node : Node) : Typed :=
  expressionRule scope
    (fun part =>
      if _h : part.size < node.size then typeWhile scope following entered part
      else .ok .unknown)
    (fun name =>
      if name == "undefined" then .ok .undefined
      else
        match _found : scope.lookup? name with
        | none => .ok .unknown
        | some binding =>
          match binding.declaredType, binding.kind, binding.value with
          | some type, _, _ => .ok (writtenType type)
          | none, .simple, some value =>
            if _fresh : following.contains name = false then
              typeWhile scope (name :: following) [] value
            else .ok .unknown
          | none, _, _ => .ok .unknown)
    (fun name =>
      match _found : scope.lookup? name with
      | none => .ok .unknown
      | some binding =>
        match binding.function with
        | none => .ok .unknown
        | some function =>
          if _fresh : entered.contains name = false then
            returnRule (fun part => typeWhile scope following (name :: entered) part) function
          else .error ⟨name⟩)
    node
termination_by (scope.unlisted following, scope.unlisted entered, node.size)
decreasing_by
  · exact Prod.Lex.right _ (Prod.Lex.right _ _h)
  · exact Prod.Lex.left _ _ (Scope.unlisted_cons_lt _found _fresh)
  · exact Prod.Lex.right _ (Prod.Lex.left _ _ (Scope.unlisted_cons_lt _found _fresh))

end Typing

/-- The type of an expression in a scope. -/
def typeOf (scope : Scope) (node : Node) : Typed := Typing.typeWhile scope [] [] node

end RouteBinder.Analysis
