import RouteBinder.Source.Shape
import RouteBinder.TypeExpr

/-!
# RouteBinder.Analysis.Payload

**The payload of a request.** A handler reads its payload through its first parameter: by calling
`json` or `body` on it, or by its property `body`, awaited or not. The value is bound to variables,
or taken apart, directly or through such a variable.
-/

namespace RouteBinder.Analysis

open Source

/-- The name of the request parameter of a handler, if it is a plain name. -/
def requestName? (function : Node) : Option String :=
  match function.functionParameters.head?.bind Node.parameterPattern? with
  | some pattern => if pattern.kind == .identifier then some pattern.text else none
  | none => none

/-- Is the expression a read of the payload of `request`? -/
def isPayloadRead (request : String) (node : Node) : Bool :=
  match node.unwrapAwait? with
  | none => false
  | some read =>
    match read.kind with
    | .callExpression =>
      match read.callParts? with
      | some (callee, _) => callee == request ++ ".json" || callee == request ++ ".body"
      | none => false
    | .memberExpression => read.text == request ++ ".body"
    | _ => false

/-- What a handler binds of its payload. -/
structure Payload where
  /-- Variables that hold the payload. -/
  holders : List String := []
  /-- Properties that are taken from it by destructuring. -/
  destructured : List String := []
  deriving DecidableEq, Repr, Inhabited

namespace Payload

def isEmpty (payload : Payload) : Bool :=
  payload.holders.isEmpty && payload.destructured.isEmpty

/-- The variables that the declarators bind to the whole payload. -/
def variablesOf (request : String) (declarators : List Node) : List String :=
  declarators.filterMap fun declarator =>
    match declarator.field? .name, declarator.field? .value with
    | some pattern, some value =>
      if pattern.kind == .identifier && isPayloadRead request value then some pattern.text
      else none
    | _, _ => none

/-- The keys of the object patterns whose values satisfy `isPayload`. -/
def keysOf (isPayload : Node → Bool) (declarators : List Node) : List String :=
  declarators.flatMap fun declarator =>
    match declarator.field? .name, declarator.field? .value with
    | some pattern, some value =>
      if pattern.kind == .objectPattern && isPayload value then pattern.patternKeys else []
    | _, _ => []

/-- Is the expression one of the variables? -/
def isVariableOf (holders : List String) (node : Node) : Bool :=
  match node.unwrap? with
  | some inner => inner.kind == .identifier && holders.contains inner.text
  | none => false

/-- What a function binds of the payload of its request. -/
def ofFunction (function : Node) (request? : Option String) : Payload :=
  match request?, function.field? .body with
  | some request, some body =>
    let declarators := body.ownNodes.filter (·.kind == .variableDeclarator)
    let holders := variablesOf request declarators
    let destructured :=
      keysOf (isPayloadRead request) declarators ++ keysOf (isVariableOf holders) declarators
    ⟨TypeExpr.distinct holders, TypeExpr.distinct destructured⟩
  | _, _ => {}

end Payload

end RouteBinder.Analysis
