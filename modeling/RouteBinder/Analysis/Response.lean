import RouteBinder.Source.Shape
import RouteBinder.Text.Decimal

/-!
# RouteBinder.Analysis.Response

**Responses.** Handlers answer by constructing responses, by helpers that put a value into a
response, or by redirects; all of them are recognised by name. The status of a response is known
when its options give it as a decimal literal, and a response without a known status counts as a
success.
-/

namespace RouteBinder.Analysis

open Source Text

/-- Classes of responses. -/
def responseClasses : List String := ["NextResponse", "Response", "NextApiResponse"]

/-- Calls that put a value into a response. -/
def jsonHelpers : List String := ["NextResponse.json", "Response.json"]

/-- Calls that make a response which leads elsewhere. -/
def redirectCalls : List String := ["NextResponse.redirect", "Response.redirect"]

/-- The call that writes a value as text. -/
def serializeCall : String := "JSON.stringify"

/-- The status in the options of a response. -/
def responseStatus? (options : Node) : Option Nat :=
  match options.unwrap? with
  | none => none
  | some options =>
    if options.kind == .object then
      let statuses := (options.namedChildren.filter (·.kind == .pair)).filter fun pair =>
        ((pair.field? .key).map Node.keyName) == some "status"
      let literal? := (statuses.filterMap (·.unwrappedField? .value)).find? (·.kind == .number)
      literal?.bind fun literal => Decimal.value? literal.text
    else none

/-- Does a response of that status tell of success? -/
def isSuccess : Option Nat → Bool
  | none => true
  | some status => 200 ≤ status && status < 300

end RouteBinder.Analysis
