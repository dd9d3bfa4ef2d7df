import RouteBinder.Analysis.Response
import RouteBinder.ImportSpec
import RouteBinder.Analysis.Typing

/-!
# RouteBinder.Analysis.Output

**What a handler returns.** A declared return type counts unless it only says that a response is
returned. Then the returned responses are looked at: the first that tells of success and carries a
value gives the type.
-/

namespace RouteBinder.Analysis

open Source

/-- The expression that a response is constructed around, taken out of a serialising call. -/
def serialized? (body : Node) : Option Node :=
  match body.unwrap? with
  | none => none
  | some inner =>
    match inner.kind, inner.callParts? with
    | .callExpression, some (callee, args) =>
      if callee == serializeCall then args.head? else some inner
    | _, _ => some inner

/-- Do the options of a response tell of failure? -/
def tellsFailure (options : Node) : Bool := !isSuccess (responseStatus? options)

/-- The type of a value, if there is one. -/
def typeOfValue (scope : Scope) : Option Node → Typed
  | some value => typeOf scope value
  | none => .ok .unknown

/-- The type of the value that a returned expression carries; nothing when it is no response or a
response of failure. -/
def responseType? (scope : Scope) (returned : Node) : Except CircularReturn (Option TypeExpr) :=
  match returned.unwrapAwait? with
  | none => .ok none
  | some response =>
    match response.callParts? with
    | none => .ok none
    | some (callee, args) =>
      if response.kind == .newExpression && responseClasses.contains callee then
        if args[1]?.any tellsFailure then .ok none
        else (typeOfValue scope (args.head?.bind serialized?)).map some
      else if response.kind == .callExpression && jsonHelpers.contains callee then
        if args[1]?.any tellsFailure then .ok none
        else (typeOfValue scope args.head?).map some
      else .ok none

/-- The type of the first response that has one. -/
def firstResponseType? (scope : Scope) : List Node → Except CircularReturn (Option TypeExpr)
  | [] => .ok none
  | returned :: rest => do
    match ← responseType? scope returned with
    | some type => return some type
    | none => firstResponseType? scope rest

/-- A declared return type without the promise around it. -/
def settledType (declared : String) : String :=
  let text := Text.trim declared
  (present (TypeExpr.unwrapGeneric? text "Promise")).getD text

/-- What stands in front of the arguments of a generic type. -/
def genericBase (text : String) : String :=
  Text.trim (String.ofList (text.toList.takeWhile (· != '<')))

/-- The type of what a handler returns. -/
def outputType (scope : Scope) (function : Node) (declared : Option String) : Typed :=
  let settled := present (declared.map settledType)
  match settled.filter fun text => !responseClasses.contains (genericBase text) with
  | some text => .ok (.named text)
  | none => do
    match ← firstResponseType? scope function.returnedExpressions with
    | some type => return type
    | none => return (settled.map TypeExpr.named).getD .unknown

end RouteBinder.Analysis
