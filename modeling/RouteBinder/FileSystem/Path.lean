import RouteBinder.Text.Lines

/-!
# RouteBinder.FileSystem.Path

**Paths.** A path is a list of names behind an anchor: nothing for a path that is relative to some
directory, one slash for an absolute one (and, as file systems allow, two slashes for a second kind
of root). Empty names and `.` are dropped when a path is read; `..` is kept, because only the file
system knows where it leads.

* `Path.resolve` takes `..` back lexically, which is where it leads in a file system without links;
* `Path.relativeTo` is the way from one directory to a file; and
* `rebase` uses it to write a relative module specifier anew for another directory.
-/

namespace RouteBinder.FileSystem

open Text

/-- Where the names of a path start. -/
inductive Anchor where
  | relative | root | alternateRoot
  deriving DecidableEq, Repr, Inhabited

/-- How many slashes stand for the anchor. -/
def Anchor.slashes : Anchor → Nat
  | .relative => 0
  | .root => 1
  | .alternateRoot => 2

structure Path where
  anchor : Anchor := .relative
  parts : List String := []
  deriving DecidableEq, Repr, Inhabited

namespace Path

/-! ### Reading and writing -/

/-- Is the name one that stays where it is? -/
def isIdle (name : String) : Bool := name == "" || name == "."

/-- The anchor of a text: two slashes are an anchor of their own, any other number is one. -/
def anchorOf (text : List Char) : Anchor :=
  match (text.takeWhile (· == '/')).length with
  | 0 => .relative
  | 2 => .alternateRoot
  | _ => .root

/-- The names between the slashes of a text. -/
def names (text : String) : List String :=
  ((splitOn '/' text.toList).map String.ofList).filter (!isIdle ·)

def ofString (text : String) : Path := ⟨anchorOf text.toList, names text⟩

/-- Names with slashes between them. -/
def joinNames (names : List String) : String := String.intercalate "/" names

/-- The text of a path; the empty path is written as a dot. -/
def render (path : Path) : String :=
  match path.anchor, path.parts with
  | .relative, [] => "."
  | anchor, parts => String.ofList (List.replicate anchor.slashes '/') ++ joinNames parts

instance : ToString Path := ⟨render⟩

/-! ### Parts -/

def isAbsolute (path : Path) : Bool := path.anchor != .relative

/-- The last name of a path, empty when there is none. -/
def name (path : Path) : String := path.parts.getLast?.getD ""

/-- The path without its last name. -/
def parent (path : Path) : Path := { path with parts := path.parts.dropLast }

/-- The path of an entry of a directory. -/
def child (path : Path) (name : String) : Path := { path with parts := path.parts ++ [name] }

/-- The path that `other` names when read in `path`. -/
def join (path other : Path) : Path :=
  if other.isAbsolute then other else { path with parts := path.parts ++ other.parts }

/-! ### Resolution -/

/-- Names with every `..` taken back where that is possible, last name first. At a root, `..` stays
at the root. -/
def walkBack (rooted : Bool) (seen : List String) (name : String) : List String :=
  if name == ".." then
    match seen with
    | [] => if rooted then [] else [".."]
    | last :: rest => if last == ".." then ".." :: last :: rest else rest
  else name :: seen

/-- The path with every `..` taken back where that is possible. -/
def normalize (path : Path) : Path :=
  { path with parts := (path.parts.foldl (walkBack path.isAbsolute) []).reverse }

/-- Can an entry of a directory have the name? -/
def isFileName (name : String) : Bool :=
  !isIdle name && name != ".." && !name.toList.contains '/' && !hasNull name

end Path

/-- The machine that a program runs on. It is inferred, so that what is said of files carries the machine
without a parameter for it. -/
class Host where
  /-- The names from the root to the directory that the program was started in. -/
  workingNames : List String
  isFileName_of_mem : ∀ name ∈ workingNames, Path.isFileName name = true
  /-- The home directory of the user that the program runs for, by the list of accounts. -/
  ownHome? : Option String
  /-- The home directory of a user, by the list of accounts. -/
  homeOf? : String → Option String
  /-- The place of a program that is found by its name alone. -/
  program? : String → Option String

/-- A machine with a single account, on which nothing is installed. -/
abbrev Host.solitary : Host where
  workingNames := ["work", "routes", "project"]
  isFileName_of_mem := by decide
  ownHome? := some "/root"
  homeOf? user := if user == "root" then some "/root" else none
  program? _ := none

namespace Path

variable [Host]

/-- The directory that relative paths are taken from. -/
def workingDirectory : Path := ⟨.root, Host.workingNames⟩

/-- The absolute path of a file that no link leads to. -/
def resolve (path : Path) : Path := (workingDirectory.join path).normalize

/-- Drops what two lists have in common at their beginnings. -/
def dropCommon : List String → List String → List String × List String
  | a :: as, b :: bs => if a == b then dropCommon as bs else (a :: as, b :: bs)
  | as, bs => (as, bs)

/-- The names that lead from a directory to a file: up to their last common directory and down from
there. -/
def wayTo (directory file : List String) : List String :=
  let (up, down) := dropCommon directory file
  up.map (fun _ => "..") ++ down

/-- The relative path that leads from `directory` to `file`. -/
def relativeTo (file directory : Path) : Path :=
  ⟨.relative, wayTo directory.resolve.parts file.resolve.parts⟩

/-- The names below `directory` that lead to `path`; nothing when `path` is not below it. -/
def below? (path directory : Path) : Option (List String) :=
  if path.anchor == directory.anchor && directory.parts.isPrefixOf path.parts then
    some (path.parts.drop directory.parts.length)
  else none

/-! ### Order -/

/-- Names before names, one by one. -/
def namesLe : List String → List String → Bool
  | [], _ => true
  | _ :: _, [] => false
  | a :: as, b :: bs => a < b || (a == b && namesLe as bs)

/-- The order in which sorted listings of paths have them. -/
def le (a b : Path) : Bool := namesLe a.parts b.parts

end Path

/-! ### Module specifiers -/

/-- Does a module specifier name a file relative to the importing one? -/
def isRelativeSpecifier (specifier : String) : Bool :=
  "./".toList.isPrefixOf specifier.toList || "../".toList.isPrefixOf specifier.toList

/-- A specifier for the module that `specifier` names in the directory `origin`, to be used in the
directory `target`. Only relative specifiers depend on the directory. -/
def rebase [Host] (specifier : String) (origin target : Option Path) : String :=
  match origin, target with
  | some origin, some target =>
    if isRelativeSpecifier specifier then
      let way := ((origin.join (.ofString specifier)).relativeTo target).render
      if way.toList.head? == some '.' then way else "./" ++ way
    else specifier
  | _, _ => specifier

end RouteBinder.FileSystem
