import RouteBinder.Analysis.Response
import RouteBinder.Body.Fragment
import RouteBinder.Handler

/-!
# RouteBinder.Body.Extraction

**From the body of a handler to a body that returns its payload.** Calls that serialise a value and
responses around a value are replaced by the value; a response that tells of failure becomes an
expression that throws. A string at the beginning of a body may mark the kind of the handler and is
removed.
-/

namespace RouteBinder.Body

open Source Analysis

/-! ### Responses -/

/-- What stands in the place of a serialising call. -/
def serializeSubstitution : Substitution := fun node write =>
  if node.kind == .callExpression then
    match node.callParts? with
    | some (callee, value :: _) => if callee == serializeCall then some (write value) else none
    | _ => none
  else none

/-- A serialising call becomes its argument. -/
def unwrapSerialize : Rule := .ofSubstitution serializeSubstitution

/-- An expression that throws an error with the payload as its message. -/
def throwing (payload : String) : String :=
  "(() => \x7b const __body = " ++ payload ++
    "; throw new Error(JSON.stringify(__body)); \x7d)()"

/-- What stands in the place of a response. -/
def responseSubstitution : Substitution := fun node write =>
  match node.callParts? with
  | none => none
  | some (callee, args) =>
    let makers := if node.kind == .newExpression then responseClasses else jsonHelpers
    if makers.contains callee then
      let payload := (args.head?.map write).getD "undefined"
      let status := args[1]?.bind responseStatus?
      some (if isSuccess status then payload else throwing payload)
    else none

/-- A response becomes its payload, or throws it when the response tells of failure. -/
def unwrapResponse : Rule := .ofSubstitution responseSubstitution

/-! ### Sequences -/

/-- The leftmost expression of nested sequences. -/
def firstOfSequence? (node : Node) : Option Node :=
  if node.kind == .sequenceExpression then
    match _h : node.firstNamed? with
    | some first => firstOfSequence? first
    | none => none
  else some node
termination_by node.size
decreasing_by exact Node.size_firstNamed?_lt _h

/-- The text of a `return` of a sequence with only the first expression of the sequence. -/
def returnFirst? (statement : Node) : Option String :=
  match statement.firstNamed? with
  | none => none
  | some value =>
    if statement.kind == .returnStatement && value.kind == .sequenceExpression then
      (firstOfSequence? value).map fun first =>
        let place? := statement.children.findIdx? fun child =>
          child.isNamed && child.kind != .comment
        statement.textWith fun place => if some place == place? then some first.text else none
    else none

/-- In a body that is a single `return` of a sequence, only its first expression is kept. -/
def stripReturnComma : Rule :=
  .ofStatements fun fragment _ statement =>
    if fragment.statements.length == 1 then returnFirst? statement else none

/-! ### Markers -/

/-- The strings that mark a handler. -/
def markers : List (String × Marker) :=
  [("use infinite", .paginated), ("use pagination", .paginated), ("use stream", .streaming),
    ("use streaming", .streaming), ("use mutation", .mutation)]

/-- The marker that a body begins with. -/
def leadingMarker? (fragment : Fragment) : Option Marker :=
  match fragment.statements.head? with
  | some statement =>
    if statement.kind == .expressionStatement then
      (statement.firstNamed?.bind Node.stringValue?).bind fun text =>
        markers.lookup (Text.trim text)
    else none
  | none => none

/-- The place of the first statement among the parts of the block. -/
def firstStatementPlace? (fragment : Fragment) : Option Nat :=
  fragment.block.children.findIdx? fun child => child.isNamed && child.kind != .comment

/-- Removes the marker of a body. -/
def stripMarker : Rule :=
  .ofStatements fun fragment place _ =>
    if (leadingMarker? fragment).isSome && some place == firstStatementPlace? fragment then some ""
    else none

/-- The rules that make a body return its payload. -/
def extractionRules : List Rule :=
  [unwrapSerialize, unwrapResponse, stripReturnComma, stripMarker]

end RouteBinder.Body
