import RouteBinder.FileSystem.Path

/-!
# RouteBinder.ImportSpec

**Import declarations as data.** One `ImportSpec` says what a file takes from one module: a default
export, the module as a namespace, and named exports, each under the name it has in the file. Empty
names count as absent.
-/

namespace RouteBinder

open FileSystem

/-- A name, unless it is empty. -/
def present (name : Option String) : Option String := name.filter (!·.isEmpty)

/-- A named export and the name it gets, if that is another one. -/
structure NamedImport where
  name : String
  localAlias : Option String := none
  deriving DecidableEq, Repr, Inhabited

/-- The name that the import binds. -/
def NamedImport.localName (named : NamedImport) : String := (present named.localAlias).getD named.name

/-- What a file imports from one module. -/
structure ImportSpec where
  specifier : String
  defaultName : Option String := none
  namespaceName : Option String := none
  named : List NamedImport := []
  typeOnly : Bool := false
  /-- The directory of the file that imports; relative specifiers are read there. -/
  origin : Option Path := none
  deriving DecidableEq, Repr, Inhabited

/-- The names that the import binds. -/
def ImportSpec.localNames (spec : ImportSpec) : List String :=
  (present spec.defaultName).toList ++ (present spec.namespaceName).toList ++
    spec.named.map NamedImport.localName

end RouteBinder
