import RouteBinder.FileSystem.FileTree

/-!
# RouteBinder.Project.RouteFiles

**Which files hold routes.** Below the directory of the routes, every file with the configured name
does, unless a directory on the way to it is ignored. The same rule is applied in two ways:

* `scan` lists all such files that are there; and
* `isRouteFile` decides for one path, whether there is such a file or not.

`isWatched` leaves out, in addition, what editors and tools write while they work.
-/

namespace RouteBinder.Project

open FileSystem

namespace RouteFiles

variable [Host]

/-! ### Ignored directories -/

/-- Directories of tools and of what they produce. -/
def toolDirectories : List String :=
  [".git", ".next", ".turbo", ".vercel", "node_modules", "dist", "build", "out", "coverage"]

/-- Is a directory of this name left out? Hidden ones and private ones are, too. -/
def isIgnored (name : String) : Bool :=
  name.toList.head? == some '.' || name.toList.head? == some '_' || toolDirectories.contains name

/-! ### Listing -/

/-- The entries that are directories of routes. -/
def routeDirectories (entries : List (String × FileTree)) : List (String × FileTree) :=
  entries.filter fun (name, entry) => entry.isDirectory && !isIgnored name

/-- The names of the directories of routes in a directory. -/
def childDirectories (files : FileTree) (directory : Path) : List String :=
  ((files.find? directory).map fun tree => (routeDirectories tree.entries).map (·.1)).getD []

mutual
/-- The route files below a directory. -/
def scanTree (routeFile : String) (directory : Path) : FileTree → List Path
  | .file _ => []
  | .directory entries =>
    (if (entries.lookup routeFile).any FileTree.isFile then [(directory.child routeFile).resolve]
      else []) ++ scanEntries routeFile directory entries

def scanEntries (routeFile : String) (directory : Path) : List (String × FileTree) → List Path
  | [] => []
  | (name, entry) :: rest =>
    (if isIgnored name then [] else scanTree routeFile (directory.child name) entry) ++
      scanEntries routeFile directory rest
end

/-- All route files below a directory, in order. -/
def scan (files : FileTree) (appDir : Path) (routeFile : String) : List Path :=
  match files.find? appDir with
  | some tree => (scanTree routeFile appDir tree).mergeSort Path.le
  | none => []

/-! ### Deciding -/

/-- Does a path have the place and the name of a route file? -/
def isRouteFile (path appDir : Path) (routeFile : String) : Bool :=
  path.name == routeFile &&
    match path.resolve.below? appDir.resolve with
    | some names => !names.dropLast.any isIgnored
    | none => false

/-! ### Watching -/

/-- Directories in which nothing is watched. -/
def unwatchedDirectories : List String :=
  ["__pycache__", ".git", ".hg", ".svn", ".tox", ".venv", ".idea", "node_modules", ".mypy_cache",
    ".pytest_cache", ".hypothesis"]

/-- Does a name end like this? A question mark stands for any character. -/
def endsLike (pattern : String) (name : String) : Bool :=
  let wanted := pattern.toList.reverse
  let found := name.toList.reverse.take wanted.length
  found.length == wanted.length &&
    (wanted.zip found).all fun (w, c) => w == c || w == '?' && c != '\n'

/-- Beginnings of names of files that tools write while they work. -/
def transientStarts : List String := [".#", "flycheck_"]

/-- Ends of names of files that tools write while they work. -/
def transientEnds : List String :=
  [".pyc", ".pyo", ".pyd", ".___jb_???___", ".sw?", "~"]

/-- Is the file of this name only there for a moment? -/
def isTransient (name : String) : Bool :=
  transientStarts.any (fun start => start.toList.isPrefixOf name.toList) ||
    transientEnds.any (endsLike · name) || name == ".DS_Store"

/-- Is a change of this path one that routes may depend on? -/
def isWatched (path appDir : Path) (routeFile : String) : Bool :=
  !path.parts.any unwatchedDirectories.contains && !isTransient path.name &&
    isRouteFile path appDir routeFile

end RouteFiles

end RouteBinder.Project
