import RouteBinder.Analysis.Payload
import RouteBinder.Body.Fragment

/-!
# RouteBinder.Body.Replay

**From a request's body to an accessor's body.** A replayed body has no request. What it reads from
the request is replaced by what the accessor has: headers and cookies of the surrounding request,
the payload and the page that the accessor is given, and its own parameters for the dynamic parts of
the route. Declarations that only read what the accessor binds anyway are dropped.
-/

namespace RouteBinder.Body

open Source Analysis

/-! ### Headers and payload -/

/-- Names for the headers and cookies of the surrounding request. -/
def headersName : String := "headersVal"
def cookiesName : String := "cookiesVal"

/-- The headers and cookies of the request become those of the surrounding request. -/
def replaceRequestAccessors (request : String) : Rule :=
  .ofSubstitution fun node _ =>
    if node.kind == .memberExpression then
      if node.text == request ++ ".headers" then some headersName
      else if node.text == request ++ ".cookies" then some cookiesName
      else none
    else none

/-- Does the declarator bind a name to the payload? -/
def bindsPayload (request : String) (declarator : Node) : Bool :=
  (declarator.field? .name).any (·.kind == .identifier) &&
    (declarator.field? .value).any (isPayloadRead request)

/-- Declarations of variables for the payload disappear, and every other read of it becomes the name
`payload`. -/
def replacePayloadReads (request payload : String) : Rule :=
  .ofSubstitution fun node _ =>
    if node.isVariableDeclaration then
      let declarators := node.declarators
      if !declarators.isEmpty && declarators.all (bindsPayload request) then some "" else none
    else
      match node.kind with
      | .awaitExpression | .callExpression | .memberExpression =>
        if isPayloadRead request node then some payload else none
      | _ => none

/-! ### Route parameters -/

/-- Is the expression the one by which the body reaches its route parameters, awaited or not? -/
def isRouteParams (params : String) (node : Node) : Bool :=
  ((node.unwrapAwait?).map Node.text).getD "" == params

/-- The declarations that remain of a pattern which takes route parameters apart: one for each
parameter that gets another name. Nothing when the pattern does anything else. -/
def aliasesOf? (names : List String) : List Node → Option (List String)
  | [] => some []
  | part :: rest =>
    match part.kind with
    | .shorthandPropertyIdentifierPattern =>
      if names.contains part.text then aliasesOf? names rest else none
    | .pairPattern =>
      let key := Text.trimQuotes (part.fieldText .key)
      match part.field? .value with
      | some target =>
        if names.contains key && target.kind == .identifier then
          (aliasesOf? names rest).map (("const " ++ target.text ++ " = " ++ key ++ ";") :: ·)
        else none
      | none => none
    | _ => none

/-- What remains of a declaration that only binds route parameters; nothing for any other. -/
def routeParamsDeclaration? (params : String) (names : List String) (declaration : Node) :
    Option String :=
  match declaration.declarators with
  | [declarator] =>
    match declarator.field? .name, declarator.field? .value with
    | some pattern, some value =>
      if pattern.kind == .identifier then
        match value.unwrap? with
        | some member =>
          if member.kind == .memberExpression &&
              (member.field? .object).any (isRouteParams params) &&
              member.fieldText .property == pattern.text && names.contains pattern.text then
            some ""
          else none
        | none => none
      else if pattern.kind == .objectPattern && isRouteParams params value then
        (aliasesOf? names pattern.namedChildren).map (String.intercalate "\n")
      else none
    | _, _ => none
  | _ => none

/-- Route parameters become the accessor's own parameters `names`. -/
def substituteRouteParams (params : String) (names : List String) : Rule :=
  .ofSubstitution fun node _ =>
    if node.isVariableDeclaration then routeParamsDeclaration? params names node
    else if node.kind == .memberExpression && (node.field? .object).any (isRouteParams params) then
      let property := node.fieldText .property
      if names.contains property then some property else none
    else none

/-! ### Pages -/

/-- The name of the page that an accessor is given. -/
def pageName : String := "pageParam"

/-- The statement that declares the page becomes one that takes `replacement`. -/
def replacePageVariable (page : String) (replacement : String) : Rule :=
  .ofStatements fun _ _ statement =>
    if statement.isVariableDeclaration && statement.declarationNames == [page] then
      some ("const " ++ page ++ " = " ++ replacement ++ ";")
    else none

/-! ### Reads of the request that nothing uses -/

/-- Parts of a block with their places. -/
def places (parts : List Node) : List (Nat × Node) := parts.zipIdx.map fun (part, i) => (i, part)

/-- The statements of a block with their places among its parts. -/
def placedStatements (block : Node) : List (Nat × Node) :=
  (places block.children).filter fun (_, part) => part.isNamed && part.kind != .comment

/-- Do the two lists of names have one in common? -/
def shareName (names others : List String) : Bool := names.any others.contains

/-- Adds the place of a statement to the dropped ones, if it only reads the request for names that no
statement uses which is not dropped yet. -/
def dropIfUnused (request : String) (statements : List (Nat × Node)) (dropped : List Nat)
    (candidate : Nat × Node) : List Nat :=
  let (place, statement) := candidate
  if statement.isVariableDeclaration && statement.references.contains request then
    let names := statement.declarationNames
    let used := statements.any fun (other, node) =>
      other != place && !dropped.contains other && shareName names node.references
    if used then dropped else dropped ++ [place]
  else dropped

/-- The places of the statements that only read the request for names that nothing else uses. -/
def unusedReads (request : String) (block : Node) : List Nat :=
  let statements := placedStatements block
  statements.foldl (dropIfUnused request statements) []

/-- Drops the statements that only read the request for names that nothing else uses. -/
def dropUnusedRequestReads (request : String) : Rule :=
  fun fragment =>
    let dropped := unusedReads request fragment.block
    fragment.block.textWith fun place => if dropped.contains place then some "" else none

end RouteBinder.Body
