import RouteBinder.TypeExpr

/-!
# RouteBinder.Handler

**Handlers.** A handler is what a route file does for one HTTP verb: what it takes and returns, its
body as it is retained for replay, and the names through which the body reaches the request. The
marker says which kind of accessor the handler gets.
-/

namespace RouteBinder

/-- The verbs that route files can implement. -/
def verbs : List String := ["GET", "POST", "PUT", "PATCH", "DELETE", "OPTIONS"]

inductive Marker where
  | plain | redirect | streaming | paginated | mutation
  deriving DecidableEq, Repr, Inhabited

namespace Marker

def all : List Marker := [.plain, .redirect, .streaming, .paginated, .mutation]

def name : Marker → String
  | .plain => "plain"
  | .redirect => "redirect"
  | .streaming => "streaming"
  | .paginated => "paginated"
  | .mutation => "mutation"

def ofName? (name : String) : Option Marker := all.find? (·.name == name)

end Marker

/-- How a paginated handler finds its page. -/
structure Pagination where
  /-- The variable that holds the page. -/
  page : String := "page"
  /-- The query parameter that the page is read from. -/
  queryKey : String := "page"
  /-- The expression for the size of a page. -/
  size : Option String := none
  deriving DecidableEq, Repr, Inhabited

structure Handler where
  verb : String
  input : TypeExpr := .unknown
  output : TypeExpr := .unknown
  /-- The body, ready to be replayed. -/
  body : String := ""
  /-- The name of the request in the body. -/
  request : String := "req"
  /-- The expression by which the body reaches the dynamic parameters of its route. -/
  routeParams : Option String := none
  /-- The variable that holds the payload. -/
  payloadVariable : Option String := none
  /-- The properties that the body destructures from the payload. -/
  payloadProperties : List String := []
  marker : Marker := .plain
  redirectUrl : Option String := none
  pagination : Option Pagination := none
  declaredReturnType : Option String := none
  deriving DecidableEq, Repr, Inhabited

namespace Handler

def isGet (handler : Handler) : Bool := handler.verb == "GET"

/-- Does the body read a payload? -/
def consumesPayload (handler : Handler) : Bool :=
  (handler.input != .unknown && handler.input != .void) ||
    handler.payloadVariable.any (!·.isEmpty) || !handler.payloadProperties.isEmpty

/-- Do the accessors of the handler take a payload? -/
def usesBody (handler : Handler) : Bool := !handler.isGet && handler.consumesPayload

end Handler

end RouteBinder
