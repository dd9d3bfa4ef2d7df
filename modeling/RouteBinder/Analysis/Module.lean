import RouteBinder.Analysis.Discovery
import RouteBinder.Analysis.Input
import RouteBinder.Analysis.Output
import RouteBinder.Body.Dependencies
import RouteBinder.Body.Extraction

/-!
# RouteBinder.Analysis.Module

**The analysis of a route file.** Every handler of the file is described: what it takes and returns,
its retained body, and how the body reaches the request. The imports of the file are kept, because
the bodies use them.

A file is not analysed when it has syntax errors, or when the type of something it returns depends
on itself.
-/

namespace RouteBinder.Analysis

open Source FileSystem Body

/-! ### Bodies -/

/-- The text of a handler's body: the content of its block, or a `return` of the expression it
consists of. -/
def bodyText (function : Node) : String :=
  match function.field? .body with
  | none => ""
  | some body =>
    if body.kind == .statementBlock then Text.blockContent (Text.inside body.text)
    else "return " ++ body.text ++ ";"

/-- The body as it is retained: it returns its payload, and what it needs of its module stands in
front of it. -/
def retainedBody [Recovery] (program : Node) (text : String) : String :=
  let body := if text.isEmpty then "" else applyAll extractionRules text
  prependDeclarations body (freeDeclarations program body verbs)

/-! ### Redirects and route parameters -/

/-- The address of the first redirect that is returned with a plain string. -/
def redirectTarget? (function : Node) : Option String :=
  function.returnedExpressions.findSome? fun returned =>
    match returned.unwrapAwait?.bind Node.callParts? with
    | some (callee, target :: _) =>
      if redirectCalls.contains callee then target.stringValue? else none
    | _ => none

/-- How a part of the pattern for the second parameter reaches the route parameters. -/
def routeParamsPart? (part : Node) : Option String :=
  match part.kind with
  | .shorthandPropertyIdentifierPattern => if part.text == "params" then some "params" else none
  | .pairPattern =>
    if part.fieldText .key == "params" then
      ((part.field? .value).filter (·.kind == .identifier)).map Node.text
    else none
  | _ => none

/-- How a handler reaches the dynamic parameters of its route: through its second parameter. -/
def routeParams? (function : Node) : Option String :=
  match (function.functionParameters[1]?).bind Node.parameterPattern? with
  | none => none
  | some pattern =>
    match pattern.kind with
    | .identifier => some (pattern.text ++ ".params")
    | .objectPattern => pattern.namedChildren.findSome? routeParamsPart?
    | _ => none

/-! ### Pages -/

/-- The key of the first query parameter that an expression reads. -/
def queryKey? (value : Node) : Option String :=
  value.preorder.findSome? fun call =>
    if call.kind == .callExpression then
      match (call.field? .function).bind Node.memberParts?, call.callArguments with
      | some (_, "get"), key :: _ => key.stringValue?
      | _, _ => none
    else none

/-- The variables of a body that are initialised from query parameters, with the keys. -/
def queryVariables (body : Node) : List (String × String) :=
  (body.ownNodes.filter (·.kind == .variableDeclarator)).filterMap fun declarator =>
    match declarator.field? .name, (declarator.field? .value).bind queryKey? with
    | some pattern, some key =>
      if pattern.kind == .identifier then some (pattern.text, key) else none
    | _, _ => none

/-- The size in an expression that skips pages: `size` in `(page - 1) * size`. -/
def pageSizeIn? (page : String) (node : Node) : Option String :=
  if node.kind == .binaryExpression && node.fieldText .operator == "*" then
    match node.unwrappedField? .left with
    | none => none
    | some left =>
      if left.kind == .binaryExpression && left.fieldText .operator == "-" &&
          left.fieldText .left == page && left.fieldText .right == "1" then
        some (node.fieldText .right)
      else none
  else none

/-- How a handler finds its page: by the first query variable that pages are skipped with, else by
one that is called `page`, else by the first query variable. -/
def pagination (function : Node) : Pagination :=
  match function.field? .body with
  | none => {}
  | some body =>
    let candidates := queryVariables body
    let skipping := candidates.findSome? fun (page, queryKey) =>
      (body.ownNodes.findSome? (pageSizeIn? page)).map fun size =>
        { page, queryKey, size := some size : Pagination }
    let named := (candidates.reverse.find? (·.1 == "page")).map fun (page, queryKey) =>
      { page, queryKey : Pagination }
    let first := candidates.head?.map fun (page, queryKey) => { page, queryKey : Pagination }
    (skipping <|> named <|> first).getD {}

/-! ### Handlers -/

/-- The marker of a handler. A redirect counts first, then the string at the beginning of the body,
then the type it returns. -/
def decideMarker (leading : Option Marker) (redirect : Option String) (output : TypeExpr) :
    Marker :=
  if redirect.isSome then .redirect
  else
    leading.getD
      (if "ReadableStream".toList.isPrefixOf output.render.toList then .streaming else .plain)

/-- The description of a handler. -/
def describe [Recovery] (program : Node) (module : Scope) (site : HandlerSite) :
    Except CircularReturn Handler := do
  let function := site.function
  let cx := HandlerContext.ofFunction function module
  let output ← outputType cx.scope function site.returnType
  let text := bodyText function
  let leading := if text.isEmpty then none else leadingMarker? (Fragment.parse text)
  let redirectUrl := redirectTarget? function
  let marker := decideMarker leading redirectUrl output
  return {
    verb := site.verb
    input := inputType cx site.verb
    output
    body := retainedBody program text
    request := cx.request.getD "req"
    routeParams := routeParams? function
    payloadVariable := cx.payload.holders.head?
    payloadProperties := cx.payload.destructured
    marker
    redirectUrl
    pagination := if marker == .paginated then some (pagination function) else none
    declaredReturnType := site.returnType }

/-! ### Modules -/

/-- What is known of a route file. -/
structure ModuleAnalysis where
  handlers : List Handler := []
  imports : List ImportSpec := []
  deriving DecidableEq, Repr, Inhabited

/-- Why a source is not analysed. -/
inductive SourceError where
  | syntaxErrors
  | circularReturn (cause : CircularReturn)
  deriving DecidableEq, Repr, Inhabited

/-- The analysis of a source text in the directory `origin`. -/
def analyze [Recovery] (source : String) (origin : Option Path) : Except SourceError ModuleAnalysis :=
  match Grammar.parse? source with
  | none => .error .syntaxErrors
  | some program =>
    let module := Scope.ofModule program
    match (discoverHandlers program).mapM (describe program module) with
    | .ok handlers => .ok { handlers, imports := importSpecs program origin }
    | .error cause => .error (.circularReturn cause)

end RouteBinder.Analysis
