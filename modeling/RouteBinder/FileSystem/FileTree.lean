import RouteBinder.FileSystem.Path
import RouteBinder.Keyed

/-!
# RouteBinder.FileSystem.FileTree

**File systems as values.** A file tree is a file with its bytes or a directory with entries, ordered
by name. There are no links, so every name leads to one place, and a path with `..` leads where it
leads lexically as long as all the directories on the way are there.

Updates give a new tree, or nothing when a file stands where a directory is needed (or the other way
round).
-/

namespace RouteBinder.FileSystem

inductive FileTree where
  | file (content : ByteArray)
  | directory (entries : List (String × FileTree))
  deriving Inhabited

namespace FileTree

variable [Host]

/-! ### Equality -/

mutual
def decEq : (s t : FileTree) → Decidable (s = t)
  | .file a, .file b => decidable_of_iff (a = b) (by simp)
  | .file _, .directory _ => isFalse nofun
  | .directory _, .file _ => isFalse nofun
  | .directory a, .directory b =>
    have := decEqEntries a b
    decidable_of_iff (a = b) (by simp)

def decEqEntries : (s t : List (String × FileTree)) → Decidable (s = t)
  | [], [] => isTrue rfl
  | [], _ :: _ => isFalse nofun
  | _ :: _, [] => isFalse nofun
  | (name, entry) :: s, (name', entry') :: t =>
    have := decEq entry entry'
    have := decEqEntries s t
    decidable_of_iff (name = name' ∧ entry = entry' ∧ s = t) (by simp [and_assoc])
end

instance : DecidableEq FileTree := decEq

/-! ### Looking -/

/-- The entries of a directory; a file has none. -/
def entries : FileTree → List (String × FileTree)
  | .file _ => []
  | .directory entries => entries

def isDirectory : FileTree → Bool
  | .file _ => false
  | .directory _ => true

def isFile (tree : FileTree) : Bool := !tree.isDirectory

/-- Where the names lead from `here`, which stands in the directories `above`, nearest first. -/
def walk (above : List FileTree) (here : FileTree) : List String → Option FileTree
  | [] => some here
  | name :: rest =>
    match here with
    | .file _ => none
    | .directory entries =>
      if name == ".." then
        match above with
        | [] => walk [] here rest
        | parent :: above => walk above parent rest
      else
        match entries.lookup name with
        | some entry => walk (here :: above) entry rest
        | none => none

/-- What is at a path, in a tree that starts at the root. -/
def find? (root : FileTree) (path : Path) : Option FileTree :=
  walk [] root (Path.workingDirectory.join path).parts

def isDirectoryAt (root : FileTree) (path : Path) : Bool := (root.find? path).any isDirectory

def isFileAt (root : FileTree) (path : Path) : Bool := (root.find? path).any isFile

/-- The content of the file at a path. -/
def content? (root : FileTree) (path : Path) : Option ByteArray :=
  match root.find? path with
  | some (.file content) => some content
  | _ => none

/-- The text that the bytes of a file encode, with unified line ends. -/
def decode? (content : ByteArray) : Option String :=
  (String.fromUTF8? content).map fun text =>
    String.ofList (Text.unifyLineEnds text.toList)

mutual
/-- The paths of all files below a tree, joined to the names that lead to it. -/
def filesBelow (names : List String) : FileTree → List (List String)
  | .file _ => [names]
  | .directory entries => filesOfEntries names entries

def filesOfEntries (names : List String) : List (String × FileTree) → List (List String)
  | [] => []
  | (name, entry) :: rest => filesBelow (names ++ [name]) entry ++ filesOfEntries names rest
end

/-! ### Changing -/

/-- The tree with something at the end of a way, on which missing directories are made. -/
def insert (new : FileTree) : List String → FileTree → Option FileTree
  | [], _ => some new
  | _ :: _, .file _ => none
  | name :: rest, .directory entries =>
    (insert new rest ((entries.lookup name).getD (.directory []))).map fun entry =>
      .directory (Keyed.put name entry entries)

/-- The tree with nothing at the end of a way. -/
def erase : List String → FileTree → FileTree
  | [], tree => tree
  | _ :: _, .file content => .file content
  | [name], .directory entries => .directory (Keyed.remove name entries)
  | name :: rest, .directory entries =>
    match entries.lookup name with
    | some entry => .directory (Keyed.put name (erase rest entry) entries)
    | none => .directory entries

/-- The tree with a directory at the end of a way, and all directories on it. -/
def ensureDirectory : List String → FileTree → Option FileTree
  | _, .file _ => none
  | [], .directory entries => some (.directory entries)
  | name :: rest, .directory entries =>
    (ensureDirectory rest ((entries.lookup name).getD (.directory []))).map fun entry =>
      .directory (Keyed.put name entry entries)

/-- Makes every directory that the names pass through, where `passed` leads to the first of them. -/
def makeAlong (passed : List String) : List String → FileTree → Option FileTree
  | [], tree => some tree
  | name :: rest, tree =>
    let passed := passed ++ [name]
    (ensureDirectory (Path.mk .root passed).normalize.parts tree).bind (makeAlong passed rest)

/-- Makes a directory and all directories on the way to it. -/
def makeDirectories (root : FileTree) (path : Path) : Option FileTree :=
  makeAlong [] (Path.workingDirectory.join path).parts root

/-- Puts a file where there is no directory. -/
def writeFile (root : FileTree) (path : Path) (content : ByteArray) : Option FileTree :=
  if root.isDirectoryAt path then none else insert (.file content) path.resolve.parts root

/-- Takes away what is at a path. -/
def removeAt (root : FileTree) (path : Path) : FileTree := erase path.resolve.parts root

end FileTree

end RouteBinder.FileSystem
