import RouteBinder.Analysis.Typing
import RouteBinder.FileSystem.FileTree
import RouteBinder.Project.Config
import RouteBinder.Project.Formatter

/-!
# RouteBinder.Project.Session

**Work on a project** changes files and reports notices, and it may come to an end early. `Session` is
the type of such work: whatever was written and reported before an error stays written and reported.
-/

namespace RouteBinder.Project

open FileSystem Analysis

/-- Why work on a project ends early. -/
inductive SessionError where
  | config (cause : ConfigError)
  | circularReturn (cause : CircularReturn)
  | writeFailed (destination : Path)
  | notFormatted (cause : Formatter.Defect)
  | outsideAppDirectory
  deriving Repr, Inhabited

/-- The files of a project, and what has been reported. -/
structure Workspace where
  files : FileTree
  notices : List Notice := []
  deriving Inhabited

abbrev Session := ExceptT SessionError (StateM Workspace)

namespace Session

/-- The files as they are now. -/
def files : Session FileTree := return (← get).files

def setFiles (files : FileTree) : Session Unit := modify fun workspace => { workspace with files }

def report (notices : List Notice) : Session Unit :=
  modify fun workspace => { workspace with notices := workspace.notices ++ notices }

/-- Takes over a result, and reports its notices. -/
def take {ε α : Type} (raise : ε → SessionError) : Except ε (Noted α) → Session α
  | .ok noted => do
    report noted.notices
    return noted.value
  | .error cause => throw (raise cause)

/-- Does some work on a workspace. -/
def runOn {α : Type} (session : Session α) (workspace : Workspace) :
    Except SessionError α × Workspace :=
  (ExceptT.run session).run workspace

end Session

end RouteBinder.Project
