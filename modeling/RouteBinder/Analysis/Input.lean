import RouteBinder.Analysis.Payload
import RouteBinder.Analysis.Schema
import RouteBinder.Analysis.Usage

/-!
# RouteBinder.Analysis.Input

**What a handler takes.** The type of the payload is looked for in three places, and the first one
that knows anything wins:

1. a validator that is called with the payload (`validatedType?`);
2. a local function with an annotated parameter that is called with the payload
   (`helperType?`);
3. the uses of the properties of the payload (`usedType?`).

A `GET` that binds no payload takes nothing; of any other payload nothing is known.
-/

namespace RouteBinder.Analysis

open Source

/-- A handler's function together with what is in scope in it. -/
structure HandlerContext where
  function : Node
  scope : Scope
  request : Option String
  payload : Payload
  deriving Inhabited

namespace HandlerContext

def ofFunction (function : Node) (module : Scope) : HandlerContext :=
  let request := requestName? function
  { function, scope := .ofFunction function module, request,
    payload := .ofFunction function request }

/-- The calls that the handler makes itself. -/
def calls (cx : HandlerContext) : List Node :=
  match cx.function.field? .body with
  | some body => body.ownNodes.filter (·.kind == .callExpression)
  | none => []

/-- Is the argument the payload? -/
def isPayload (cx : HandlerContext) (argument : Node) : Bool :=
  match argument.unwrap? with
  | none => false
  | some inner =>
    (inner.kind == .identifier && cx.payload.holders.contains inner.text) ||
      cx.request.any fun request => isPayloadRead request inner

end HandlerContext

/-- Methods that validate their argument. -/
def validatorMethods : List String := ["parse", "safeParse", "parseAsync", "safeParseAsync"]

/-- The type that a schema validates. A schema that cannot be read off is referred to by name. -/
def validatorType (scope : Scope) (schema : Node) : TypeExpr :=
  match schema.unwrap? with
  | none => .unknown
  | some schema =>
    if schema.kind == .identifier then
      let name := schema.text
      (Schema.declaredType? scope name <|> schemaType? scope schema).getD
        (.named ("z.infer<typeof " ++ name ++ ">"))
    else (schemaType? scope schema).getD .unknown

/-- The type that the first validation of the payload ensures. -/
def validatedType? (cx : HandlerContext) : Option TypeExpr :=
  cx.calls.findSome? fun call =>
    match (call.field? .function).bind Node.memberParts?, call.callArguments with
    | some (schema, method), payload :: _ =>
      if validatorMethods.contains method && cx.isPayload payload then
        some (validatorType cx.scope schema)
      else none
    | _, _ => none

/-- The type that the first parameter of the first annotated local function called with the payload
has. -/
def helperType? (cx : HandlerContext) : Option TypeExpr :=
  cx.calls.findSome? fun call =>
    match call.unwrappedField? .function with
    | none => none
    | some callee =>
      if callee.kind == .identifier && call.callArguments.any cx.isPayload then
        let function := (cx.scope.lookup? callee.text).bind Binding.function
        let clause := (function.bind (·.functionParameters.head?)).bind (·.field? .type)
        clause.map writtenType
      else none

/-- The record of the properties of the payload that the handler uses. -/
def usedType? (cx : HandlerContext) : Option TypeExpr :=
  match cx.function.field? .body with
  | none => none
  | some body =>
    let destructured := cx.payload.destructured.flatMap fun name =>
      ({} :: usagesOf cx.function body name).map (Usage.under (.property name))
    let accessed := cx.payload.holders.flatMap (usagesOf cx.function body)
    Usage.recordOf? (destructured ++ accessed)

/-- A type of which something is known. -/
def informative (type? : Option TypeExpr) : Option TypeExpr := type?.filter (!·.isUnknown)

/-- The type of what a handler for `verb` takes. -/
def inputType (cx : HandlerContext) (verb : String) : TypeExpr :=
  let inferred := informative (validatedType? cx) <|> informative (helperType? cx) <|>
    informative (usedType? cx)
  inferred.getD (if verb == "GET" && cx.payload.isEmpty then .void else .unknown)

end RouteBinder.Analysis
