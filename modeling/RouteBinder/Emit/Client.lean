import RouteBinder.Emit.Accessor

/-!
# RouteBinder.Emit.Client

**Members for the browser.** A handler becomes a query or mutation hook that fetches its route; one
that streams becomes a function that opens the stream, and a redirect one that leaves the page.
-/

namespace RouteBinder.Emit.Client

open Text Route

/-- The query string for the given search parameters, if there are any. -/
def querySuffix : String := "(searchParams ? '?' + new URLSearchParams(searchParams) : '')"

/-- The options of a member: the payload, if it takes one, and search parameters. -/
def optionsSignature (handler : Handler) : String :=
  let query := "searchParams?: Record<string, string>"
  if handler.usesBody then
    "(\x7b body, searchParams \x7d: \x7b body: " ++ handler.input.render ++ "; " ++ query ++ " \x7d)"
  else "(\x7b searchParams \x7d: \x7b " ++ query ++ " \x7d = \x7b\x7d)"

/-- The address of a route with its query string. -/
def urlOf (path : String) : String := path ++ " + " ++ querySuffix

/-- A plain request. -/
def fetchPlain (path : String) : String := "fetch(" ++ urlOf path ++ ")"

/-- A request with a verb, and with the payload if there is one. -/
def fetchWith (path verb : String) (withBody : Bool) : String :=
  let payload :=
    if withBody then
      ", headers: \x7b'Content-Type':'application/json'\x7d, body: JSON.stringify(body)"
    else ""
  "fetch(" ++ urlOf path ++ ", \x7b method: '" ++ verb ++ "'" ++ payload ++ " \x7d)"

def redirectMember (handler : Handler) (signature : String) : String :=
  signature ++ ": void => \x7b\n" ++
    "  const url = " ++ Quoted.literal (handler.redirectUrl.getD "") ++ " + " ++ querySuffix ++
    ";\n" ++
    "  window.location.assign(url);\n" ++
    "\x7d"

def streamMember (handler : Handler) (signature path : String) : String :=
  let request :=
    if handler.isGet then fetchPlain path else fetchWith path handler.verb handler.usesBody
  signature ++ " => tryCatchFunction(async () => \x7b\n" ++
    "  const res = await " ++ request ++ ";\n" ++
    "  const reader = res.body!.getReader();\n" ++
    "  const decoder = new TextDecoder();\n" ++
    "  return \x7b reader, decoder \x7d;\n" ++
    "\x7d)"

def infiniteMember (handler : Handler) (signature path : String) : String :=
  let data := handler.output.render
  let key := Quoted.literal ((handler.pagination.getD {}).queryKey)
  let request := "fetch(" ++ path ++ " + '?' + new URLSearchParams(\x7b ...searchParams, " ++ key ++
    ": String(pageParam) \x7d))"
  signature ++ ": UseInfiniteQueryResult<" ++ data ++ ", unknown> =>\n" ++
    "  useInfiniteQuery<" ++ data ++ ", unknown>(\n" ++
    "    ['" ++ handler.verb ++ "', " ++ path ++ ", searchParams],\n" ++
    "    (\x7b pageParam = 1 \x7d) => " ++ request ++ ".then(res => res.json()),\n" ++
    "    \x7b getNextPageParam: (lastPage: any) => lastPage?.nextPage ?? undefined \x7d,\n" ++
    "  )"

def queryMember (handler : Handler) (signature path : String) : String :=
  let data := handler.output.render
  signature ++ ": UseQueryResult<" ++ data ++ ", unknown> =>\n" ++
    "  useQuery<" ++ data ++ ", unknown>(['" ++ handler.verb ++ "', " ++ path ++
    ", searchParams], () => " ++ fetchPlain path ++ ".then(res => res.json()))"

/-- A mutation; `input` is the type of what it takes. -/
def mutationMember (handler : Handler) (signature path input : String) : String :=
  let types := handler.output.render ++ ", unknown, " ++ input
  signature ++ ": UseMutationResult<" ++ types ++ "> =>\n" ++
    "  useMutation<" ++ types ++ ">(() => " ++ fetchWith path handler.verb handler.usesBody ++
    ".then(res => res.json()))"

/-- The member for a handler. -/
def member : MemberEmitter := fun handler directories =>
  let signature := optionsSignature handler
  let path := Address.template directories
  match handler.marker, handler.isGet with
  | .redirect, _ => redirectMember handler signature
  | .streaming, _ => streamMember handler signature path
  | .paginated, true => infiniteMember handler signature path
  | .plain, true => queryMember handler signature path
  | _, _ =>
    mutationMember handler signature path
      (if handler.usesBody then handler.input.render else "void")

end RouteBinder.Emit.Client
