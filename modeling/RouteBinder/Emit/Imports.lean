import RouteBinder.Route.RouteTree
import RouteBinder.Text.Identifier

/-!
# RouteBinder.Emit.Imports

**The imports of an emitted file.** The bodies of all handlers end up in one file, so the imports of
all route files are brought together there:

1. relative specifiers are written anew for the directory of the emitted file, and imports from one
   module become one (`combineImports`);
2. imports that the emitted code does not use are left out (`filterUsed`);
3. names that are bound more than once get a number (`dealias`).
-/

namespace RouteBinder.Emit

open Text FileSystem Route

variable [Host]

/-! ### Bringing together -/

/-- Adds a default import to one from the same module. A second name for the default export is an
alias. -/
def mergeDefault (into : ImportSpec) (new : Option String) : ImportSpec :=
  match present new, present into.defaultName with
  | none, _ => into
  | some name, none => { into with defaultName := some name }
  | some name, some known =>
    let named : NamedImport := { name := "default", localAlias := some name }
    if name == known || into.named.contains named then into
    else { into with named := into.named ++ [named] }

/-- Adds a namespace import to one from the same module; the first one counts. -/
def mergeNamespace (into : ImportSpec) (new : Option String) : ImportSpec :=
  match present new, present into.namespaceName with
  | some name, none => { into with namespaceName := some name }
  | _, _ => into

/-- Adds a named import to one from the same module. -/
def mergeNamed (into : ImportSpec) (new : NamedImport) : ImportSpec :=
  if into.named.contains new then into else { into with named := into.named ++ [new] }

/-- Adds an import to one from the same module. -/
def mergeInto (into new : ImportSpec) : ImportSpec :=
  let bound := mergeNamespace (mergeDefault into new.defaultName) new.namespaceName
  { new.named.foldl mergeNamed bound with typeOnly := into.typeOnly && new.typeOnly }

/-- The import as it is written in a file of the directory `target`. -/
def rebaseImport (target : Option Path) (spec : ImportSpec) : ImportSpec :=
  { spec with specifier := rebase spec.specifier spec.origin target, origin := none }

/-- Adds an import to a list that has one for each module. -/
def addImport (specs : List ImportSpec) (new : ImportSpec) : List ImportSpec :=
  if specs.any (·.specifier == new.specifier) then
    specs.map fun spec => if spec.specifier == new.specifier then mergeInto spec new else spec
  else specs ++ [new]

/-- One import for each module, in order of first appearance. -/
def combineImports (specs : List ImportSpec) (target : Option Path) : List ImportSpec :=
  (specs.map (rebaseImport target)).foldl addImport []

/-- The imports of all route files of a tree, for a file in the directory `target`. -/
def treeImports (tree : RouteTree) (target : Option Path) : List ImportSpec :=
  combineImports (tree.entries.flatMap fun (_, node) => node.imports) target

/-! ### Leaving out -/

/-- Does one of the texts use a name that the import binds? A namespace is used by its members. -/
def isUsed (texts : List String) (spec : ImportSpec) : Bool :=
  let names := spec.named.map NamedImport.localName ++ (present spec.defaultName).toList
  names.any (fun name => texts.any (mentions · name)) ||
    (present spec.namespaceName).any fun name => texts.any (mentionsMember · name)

def filterUsed (specs : List ImportSpec) (texts : List String) : List ImportSpec :=
  specs.filter (isUsed texts)

/-! ### Telling names apart -/

/-- The name with the number of its earlier occurrences, if there are any. -/
def numbered? (earlier : List String) (name : String) : Option String :=
  let count := earlier.count name
  if count == 0 then none else some (name ++ "_" ++ toString count)

/-- Renames an optional name that occurred earlier. -/
def renameOption (earlier : List String) (name : Option String) : Option String :=
  ((present name).bind (numbered? earlier)) <|> name

/-- Renames the named imports whose local names occurred earlier. -/
def renameNamed (earlier : List String) : List NamedImport → List NamedImport
  | [] => []
  | named :: rest =>
    let name := named.localName
    let localAlias := numbered? earlier name <|> named.localAlias
    { named with localAlias } :: renameNamed (earlier ++ [name]) rest

/-- Renames the names of an import that occurred earlier. -/
def renameImport (earlier : List String) (spec : ImportSpec) : ImportSpec :=
  let behindDefault := earlier ++ (present spec.defaultName).toList
  let behindNamespace := behindDefault ++ (present spec.namespaceName).toList
  { spec with
    defaultName := renameOption earlier spec.defaultName
    namespaceName := renameOption behindDefault spec.namespaceName
    named := renameNamed behindNamespace spec.named }

/-- Renames the names that occurred `earlier` or in imports before. -/
def dealiasAfter (earlier : List String) : List ImportSpec → List ImportSpec
  | [] => []
  | spec :: rest => renameImport earlier spec :: dealiasAfter (earlier ++ spec.localNames) rest

/-- Gives a number to every occurrence of a name after the first. -/
def dealias (specs : List ImportSpec) : List ImportSpec := dealiasAfter [] specs

/-! ### Writing -/

def renderNamed (named : NamedImport) : String :=
  match present named.localAlias with
  | some localAlias => named.name ++ " as " ++ localAlias
  | none => named.name

/-- The named imports between braces; empty when there are none. -/
def renderNamedList (named : List NamedImport) : String :=
  if named.isEmpty then ""
  else "\x7b " ++ String.intercalate ", " (named.map renderNamed) ++ " \x7d"

/-- An import statement with the clauses. -/
def renderStatement (spec : ImportSpec) (clauses : List String) : String :=
  "import " ++ (if spec.typeOnly then "type " else "") ++ String.intercalate ", " clauses ++
    " from '" ++ spec.specifier ++ "';"

/-- The statements for an import. A namespace cannot share a statement with named imports. -/
def renderImport (spec : ImportSpec) : String :=
  let main := (present spec.defaultName).toList
  let named := (present (some (renderNamedList spec.named))).toList
  match present spec.namespaceName with
  | some name =>
    let statement := renderStatement spec (main ++ ["* as " ++ name])
    if named.isEmpty then statement else statement ++ "\n" ++ renderStatement spec named
  | none => renderStatement spec (main ++ named)

end RouteBinder.Emit
