import RouteBinder.Analysis.Module
import RouteBinder.Project.RouteFiles
import RouteBinder.Route.RouteTree
import RouteBinder.Route.Segment

/-!
# RouteBinder.Project.Build

**From directories to route trees.** A directory becomes a node with what its route file implements.
Directories in it become children under the keys of their segments, unless they do not show up in
routes: those are folded into the node. Directories are taken in the order of their names, so where two
of them collide, the first one stays.

A route file that cannot be read, or that has syntax errors, counts as empty and is reported.

How a route file is analyzed is a parameter of `Build.treeFrom`, with whatever effects the analysis has.
All files of a directory are handed over before anything is combined, so a file that fails takes nothing
from what the others hand over. `Build.ofTree` is the build with the analysis of this library.
-/

namespace RouteBinder.Project

open FileSystem Route Analysis Body

/-- Why the analysis of a file has no result. -/
inductive FileError where
  | skipped (cause : SkipCause)
  | circularReturn (cause : CircularReturn)
  deriving DecidableEq, Repr

/-- An analysis of the file at a path, given what is in it. -/
abbrev FileAnalysis (m : Type → Type) := Path → ByteArray → m (Except FileError ModuleAnalysis)

namespace Build

/-! ### Route files -/

/-- What is in a file, by its source text. -/
def analyzeContent [Recovery] (path : Path) (content : ByteArray) : Except FileError ModuleAnalysis :=
  match FileTree.decode? content with
  | none => .error (.skipped .unreadable)
  | some source =>
    match analyze source (some path.parent) with
    | .ok analysis => .ok analysis
    | .error .syntaxErrors => .error (.skipped .syntaxErrors)
    | .error (.circularReturn cause) => .error (.circularReturn cause)

/-- What a build makes of the answer to a file. -/
def heard (path : Path) :
    Except FileError ModuleAnalysis → Except CircularReturn (Noted ModuleAnalysis)
  | .ok analysis => .ok ⟨analysis, []⟩
  | .error (.skipped cause) => .ok ⟨{}, [.skippedFile path cause]⟩
  | .error (.circularReturn cause) => .error cause

/-- Hands the route file of a directory over, given what stands in its place. -/
def handOver {m : Type → Type} [Monad m] (analysis : FileAnalysis m) (directory : Path)
    (routeFile : String) : Option FileTree → m (Except CircularReturn (Noted ModuleAnalysis))
  | some (.file content) => do
    let path := directory.child routeFile
    return heard path (← analysis path content)
  | _ => return .ok ⟨{}, []⟩

/-- What is known of the route file of a directory, given what stands in its place. -/
def analyzeFile [Recovery] (directory : Path) (routeFile : String) (present : Option FileTree) :
    Except CircularReturn (Noted ModuleAnalysis) :=
  Id.run (handOver (m := Id) analyzeContent directory routeFile present)

/-! ### Nodes -/

/-- The node of a directory by itself. -/
def bareNode (directory : Path) (analysis : ModuleAnalysis) : RouteTree :=
  .node
    { segment := directory.name
      handlers := analysis.handlers
      imports := analysis.imports
      directory := some directory } []

/-- Puts the tree of a directory into the node above it. -/
def attach (name : String) (subtree node : RouteTree) : Noted RouteTree :=
  let segment := Segment.classify name
  if segment.isTransparent then node.merge subtree else node.addChild segment.key subtree

/-- Puts the trees of some directories into the node above them, one after the other. -/
def attachSubtrees (node : Noted RouteTree) (subtrees : List (String × Noted RouteTree)) :
    Noted RouteTree :=
  subtrees.foldl (fun node (name, subtree) =>
    node.bind fun above => subtree.bind fun below => attach name below above) node

/-! ### Trees -/

/-- The build goes into an entry of a directory. -/
def isTaken (name : String) (entry : FileTree) : Bool :=
  entry.isDirectory && !RouteFiles.isIgnored name

section

variable {m : Type → Type} [Monad m] (analysis : FileAnalysis m)

mutual
/-- The route tree of a directory, given what is in it. -/
def treeFrom (routeFile : String) (directory : Path) :
    FileTree → m (Except CircularReturn (Noted RouteTree))
  | .file _ => return .ok ⟨bareNode directory {}, []⟩
  | .directory entries => do
    let known ← handOver analysis directory routeFile (entries.lookup routeFile)
    let subtrees ← subtreesFrom routeFile directory entries
    return do return attachSubtrees ((← known).map (bareNode directory)) (← subtrees)

/-- The route trees of the directories of routes among the entries. -/
def subtreesFrom (routeFile : String) (directory : Path) :
    List (String × FileTree) → m (Except CircularReturn (List (String × Noted RouteTree)))
  | [] => return .ok []
  | (name, entry) :: rest =>
    if isTaken name entry then do
      let subtree ← treeFrom routeFile (directory.child name) entry
      let subtrees ← subtreesFrom routeFile directory rest
      return do return (name, ← subtree) :: (← subtrees)
    else subtreesFrom routeFile directory rest
end

variable [Host]

/-- The route tree of the directory at a path. A directory that is not there has no routes. -/
def routeTreeFrom (files : FileTree) (directory : Path) (routeFile : String) :
    m (Except CircularReturn (Noted RouteTree)) :=
  match files.find? directory with
  | some tree => treeFrom analysis routeFile directory tree
  | none => return .ok ⟨bareNode directory {}, []⟩

end

variable [Recovery]

/-- The route tree of a directory, given what is in it. -/
def ofTree (routeFile : String) (directory : Path) (tree : FileTree) :
    Except CircularReturn (Noted RouteTree) :=
  Id.run (treeFrom (m := Id) analyzeContent routeFile directory tree)

/-- The route tree of the directory at a path. A directory that is not there has no routes. -/
def routeTree [Host] (files : FileTree) (directory : Path) (routeFile : String) :
    Except CircularReturn (Noted RouteTree) :=
  Id.run (routeTreeFrom (m := Id) analyzeContent files directory routeFile)

end Build

end RouteBinder.Project
