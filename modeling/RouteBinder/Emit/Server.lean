import RouteBinder.Body.Replay
import RouteBinder.Emit.Accessor

/-!
# RouteBinder.Emit.Server

**Members for the server.** A handler becomes a function that replays its body in-process. What the
body still needs of a request stands in front of it: a stand-in for the request that knows its
address and query, and the headers and cookies of the surrounding request.
-/

namespace RouteBinder.Emit.Server

open Text Route Body

variable [Recovery]

def searchParamsType : String := "Record<string, string>"

/-- A function with the given parameters and body, in which errors are caught. -/
def wrapped (params body : String) : String :=
  "(" ++ params ++ ") => tryCatchFunction(async () => \x7b\n" ++ indent body 1 ++ "\n\x7d)"

/-- The declaration of the stand-in for the request, with its query in the variable `query`. -/
def syntheticRequest (request query : String) : String :=
  "const " ++ request ++ ": any = \x7b url: 'http://localhost' + (" ++ query ++
    " ? '?' + new URLSearchParams(" ++ query ++
    ") : ''), nextUrl: \x7b searchParams: new URLSearchParams(" ++ query ++ ") \x7d \x7d;"

/-- The rules that every replayed body is adapted with. -/
def commonRules (handler : Handler) (directories : List String) : List Rule :=
  let params := Address.params directories
  let routeParams :=
    if params.isEmpty then []
    else (present handler.routeParams).toList.map (substituteRouteParams · params)
  let payload :=
    if handler.usesBody then
      [replacePayloadReads handler.request ((present handler.payloadVariable).getD "body")]
    else []
  routeParams ++ replaceRequestAccessors handler.request :: payload

/-- The options of a member: names to bind and their types. -/
def options (handler : Handler) (usesQuery : Bool) (query : String) : List (String × String) :=
  let payload :=
    if handler.usesBody then
      let name :=
        match present handler.payloadVariable with
        | some name => if name == "body" then "body" else "body: " ++ name
        | none => "body"
      [(name, "body: " ++ handler.input.render)]
    else []
  let search :=
    if usesQuery then
      [(if query == "searchParams" then "searchParams" else "searchParams: " ++ query,
        "searchParams?: " ++ searchParamsType)]
    else []
  payload ++ search

/-- The parameter that takes the options; it may be left out when no payload is taken. -/
def optionsParam (handler : Handler) (options : List (String × String)) : String :=
  "\x7b " ++ String.intercalate ", " (options.map Prod.fst) ++ " \x7d: \x7b " ++
    String.intercalate "; " (options.map Prod.snd) ++ " \x7d" ++
    (if handler.usesBody then "" else " = \x7b\x7d")

/-- The declarations in front of a body. -/
def preamble (handler : Handler) (body : String) (usesQuery : Bool) (query : String) :
    List String :=
  let names := references body
  (if usesQuery then [syntheticRequest handler.request query] else []) ++
    (if names.contains headersName then
      ["const " ++ headersName ++ " = await nextHeaders();"] else []) ++
    (if names.contains cookiesName then
      ["const " ++ cookiesName ++ " = await nextCookies();"] else [])

/-- The name of the query in a body, which may have a variable of the usual name. -/
def queryName (body : String) : String :=
  if declaresName body "searchParams" then "__searchParams" else "searchParams"

def redirectMember (handler : Handler) : String :=
  wrapped ("_options: \x7b searchParams?: " ++ searchParamsType ++ " \x7d = \x7b\x7d")
    ("redirect(" ++ Quoted.literal (handler.redirectUrl.getD "") ++ ");")

/-- The body with the preamble in front of it. -/
def withPreamble (preamble : List String) (body : String) : String :=
  String.intercalate "\n" (preamble ++ [body])

/-- The body with the page taken from the parameter of the member. -/
def pagedBody (handler : Handler) (directories : List String) : String :=
  let page := (handler.pagination.getD {}).page
  let body := applyAll (commonRules handler directories) handler.body
  let bound :=
    if declaresName body page then apply (replacePageVariable page pageName) body
    else "const " ++ page ++ " = " ++ pageName ++ ";\n" ++ body
  applyUntilStable (dropUnusedRequestReads handler.request) roundsUntilStable bound

def paginatedMember (handler : Handler) (directories : List String) : String :=
  let body := pagedBody handler directories
  let query := queryName body
  let usesQuery := (references body).contains handler.request
  let params := optionsParam handler (options handler true query) ++ ", " ++ pageName ++
    ": number = 1"
  wrapped params (withPreamble (preamble handler body usesQuery query) body)

def generalMember (handler : Handler) (directories : List String) : String :=
  let body := applyAll (commonRules handler directories) handler.body
  let names := references body
  let query := queryName body
  let usesQuery := names.contains handler.request || names.contains "searchParams"
  let bound := options handler usesQuery query
  let params := if bound.isEmpty then "" else optionsParam handler bound
  wrapped params (withPreamble (preamble handler body usesQuery query) body)

/-- The member for a handler. -/
def member : MemberEmitter := fun handler directories =>
  match handler.marker with
  | .redirect => redirectMember handler
  | .paginated => paginatedMember handler directories
  | _ => generalMember handler directories

end RouteBinder.Emit.Server
