import RouteBinder.Emit.Client
import RouteBinder.Emit.Imports
import RouteBinder.Emit.Server

/-!
# RouteBinder.Emit.Artifact

**The emitted files.** Both files export the accessor object of the same tree, behind the imports
that it uses; the one for the browser has the hooks in scope, the one for the server what a replayed
body needs.
-/

namespace RouteBinder.Emit

open FileSystem Route

/-- A file to be written. -/
structure Artifact where
  path : Path
  text : String
  deriving DecidableEq, Repr, Inhabited

def clientBanner : String := "/* Auto-generated API SDK - do not edit */"

def serverBanner : String := "/* Auto-generated API SERVER SDK - do not edit */"

/-- The hooks of the query library. -/
def hookImports : List String :=
  ["import \x7b useQuery, useMutation, useInfiniteQuery \x7d from 'react-query';",
    "import type \x7b UseQueryResult, UseMutationResult, UseInfiniteQueryResult \x7d from 'react-query';"]

/-- What replayed bodies need of the framework. -/
def serverRuntimeImports : List String :=
  ["import \x7b headers as nextHeaders \x7d from \"next/headers\";",
    "import \x7b cookies as nextCookies \x7d from \"next/headers\";",
    "import \x7b redirect \x7d from \"next/navigation\";"]

/-- The import lines for a body: only what it uses, under distinct names. -/
def artifactImports (specs : List ImportSpec) (body : String) : List String :=
  (dealias (filterUsed specs [body])).map renderImport

def tryCatchImport (module : String) : String :=
  "import \x7b tryCatchFunction \x7d from \"" ++ module ++ "\";"

/-- The statement that exports the accessor object. -/
def apiExport (body : String) : String := "export const API = " ++ body ++ ";"

/-- The text of the file for the browser. -/
def assembleClient (body : String) (specs : List ImportSpec) (tryCatchModule : String) : String :=
  String.intercalate "\n"
    (["'use client';", "", clientBanner] ++ artifactImports specs body ++
      [tryCatchImport tryCatchModule, ""] ++ hookImports ++ ["", apiExport body, ""])

/-- The text of the file for the server. -/
def assembleServer (body : String) (specs : List ImportSpec) (tryCatchModule : String) : String :=
  String.intercalate "\n"
    ([serverBanner, ""] ++ artifactImports specs body ++ [tryCatchImport tryCatchModule] ++
      serverRuntimeImports ++ ["", apiExport body, ""])

/-! ### Listings -/

/-- A line of the list of routes. -/
structure RouteRow where
  verb : String
  path : String
  input : String
  output : String
  marker : String
  deriving DecidableEq, Repr, Inhabited

/-- The list of all routes of a tree. -/
def routeRows (tree : RouteTree) : List RouteRow :=
  tree.entries.flatMap fun (directories, node) =>
    node.handlers.map fun handler =>
      { verb := handler.verb
        path := Address.listing directories
        input := handler.input.render
        output := handler.output.render
        marker := handler.marker.name }

end RouteBinder.Emit
