import RouteBinder.Project.Generation

/-!
# RouteBinder.Project.Coordinator

**Keeping the tree of a project up to date.** The live tree is built once. After that, a change of a
route file leads to the smallest directory whose subtree it can affect; only that directory is read
again, and its new tree is put in the place of the old one. Every update makes a new version, and both
files are written anew.

* `locate` finds the directory and the keys that lead to its node. Directories that do not show up in
  routes are part of the node above them, so the nearest directory that does show up is taken.
* `updated` is the tree after a change, as a function of the files and the tree before.
* `handleEvent` and `handleChanges` take over changes one at a time.

An update whose place is not in the tree is dropped; a file that cannot be written is reported, and
the next change tries again.
-/

namespace RouteBinder.Project

open FileSystem Route Analysis Body

/-- What happened to a file. -/
inductive Change where
  | added | modified | deleted
  deriving DecidableEq, Repr, Inhabited

/-- The place of a kind of change in a batch. -/
def Change.rank : Change → Nat
  | .added => 1
  | .modified => 2
  | .deleted => 3

/-- A directory to read again, and the keys that lead to its node. No keys lead to the root. -/
structure UpdateTarget where
  directory : Path
  keys : List String
  deriving DecidableEq, Repr, Inhabited

/-- The live tree, if it has been built, and how many versions there have been. -/
structure LiveTree where
  tree : Option RouteTree := none
  version : Nat := 0
  deriving DecidableEq, Repr, Inhabited

namespace Coordinator

variable [Host] [Recovery]

/-! ### Locating -/

/-- The directory below `appDir` that an update has to start from, as the names that lead to it:
directories at the end that do not show up in routes are left out. -/
def retained (names : List String) : List String :=
  (names.reverse.dropWhile fun name => (Segment.classify name).isTransparent).reverse

/-- The target of a change, or nothing when the file is not below the directory of the routes. -/
def locate? (config : Config) (file : Path) : Option UpdateTarget :=
  let appDir := config.appDir.resolve
  (file.resolve.parent.below? appDir).map fun names =>
    let names := retained names
    { directory := { appDir with parts := appDir.parts ++ names }
      keys := Segment.keys names }

/-! ### Updating the tree -/

/-- Why a tree is not updated. -/
inductive UpdateError where
  | outsideAppDirectory
  /-- There is no place for the new subtree, whose build gave the notices. -/
  | noPlace (cause : NavigationError) (notices : List Notice)
  | circularReturn (cause : CircularReturn)
  deriving DecidableEq, Repr, Inhabited

/-- A tree that is built from the files of a directory. -/
def built (config : Config) (files : FileTree) (directory : Path) :
    Except UpdateError (Noted RouteTree) :=
  (Build.routeTree files directory config.routeFile).mapError .circularReturn

/-- Puts a subtree, or nothing, in the place that a target names. -/
def placed (tree : RouteTree) (target : UpdateTarget) (subtree : Noted (Option RouteTree)) :
    Except UpdateError (Noted RouteTree) :=
  match tree.replaceAt target.keys subtree.value with
  | .ok new => .ok ⟨new, subtree.notices⟩
  | .error cause => .error (.noPlace cause subtree.notices)

/-- The tree after a change. -/
def updated (config : Config) (files : FileTree) (live : Option RouteTree) (change : Change)
    (file : Path) : Except UpdateError (Noted RouteTree) := do
  match locate? config file, live with
  | none, _ => throw .outsideAppDirectory
  | some _, none => built config files config.appDir.resolve
  | some target, some tree =>
    if target.keys.isEmpty then built config files config.appDir.resolve
    else if change == .deleted && !files.isDirectoryAt target.directory then
      placed tree target ⟨none, []⟩
    else
      let subtree ← built config files target.directory
      placed tree target (subtree.map some)

/-! ### Handling changes -/

/-- Work on a project that has a live tree. -/
abbrev Coordination := ExceptT SessionError (StateT LiveTree (StateM Workspace))

/-- Work in which the live tree plays no part. -/
def lift {α : Type} (session : Session α) : Coordination α :=
  ExceptT.mk (StateT.lift (ExceptT.run session))

/-- Takes over a new tree, as the next version. -/
def replaceTree (tree : RouteTree) : Coordination Unit :=
  modify fun live => { tree := some tree, version := live.version + 1 }

/-- Writes the files of a tree; a failure to write is only reported. -/
def regenerate (run : Formatter.Runner) (config : Config) (tree : RouteTree)
    (refused : Generation.Refusals := Generation.noRefusals) : Coordination Unit :=
  tryCatch (lift (Generation.regenerate run config tree refused)) fun
    | .writeFailed destination => lift (Session.report [.writeFailed destination])
    | error => throw error

/-- Builds the live tree. -/
def start (run : Formatter.Runner) (config : Config)
    (refused : Generation.Refusals := Generation.noRefusals) : Coordination Unit := do
  let tree ← lift (Generation.loadTree config)
  replaceTree tree
  regenerate run config tree refused

/-- Takes over one change. The answer says whether there is a new version. -/
def handleEvent (run : Formatter.Runner) (config : Config) (change : Change) (file : Path)
    (refused : Generation.Refusals := Generation.noRefusals) : Coordination Bool := do
  unless RouteFiles.isRouteFile file config.appDir config.routeFile do
    return false
  match updated config (← lift Session.files) (← get).tree change file with
  | .ok tree =>
    lift (Session.report tree.notices)
    replaceTree tree.value
    regenerate run config tree.value refused
    return true
  | .error (.noPlace cause notices) =>
    lift (Session.report (notices ++ [.droppedUpdate cause file]))
    return false
  | .error (.circularReturn cause) => throw (.circularReturn cause)
  | .error .outsideAppDirectory => throw .outsideAppDirectory

/-- The order in which a batch of changes is taken over: by path, and for one path first what is
added and last what is deleted. -/
def inOrder (a b : Change × String) : Bool :=
  a.2 < b.2 || (a.2 == b.2 && a.1.rank ≤ b.1.rank)

/-- Takes over a batch of changes, given with the texts of their paths. -/
def handleChanges (run : Formatter.Runner) (config : Config) (changes : List (Change × String))
    (refused : Generation.Refusals := Generation.noRefusals) : Coordination Unit :=
  (changes.mergeSort inOrder).forM fun (change, file) => do
    let _ ← handleEvent run config change (.ofString file) refused

/-- Is the live tree the one that a build from scratch gives? -/
def matchesFullBuild (config : Config) : Coordination Bool := do
  let fresh ← lift (Generation.loadTree config)
  return (← get).tree == some fresh

end Coordinator

end RouteBinder.Project
