import RouteBinder.Emit.Artifact
import RouteBinder.FileSystem.AtomicWrite
import RouteBinder.Project.Build
import RouteBinder.Project.Session

/-!
# RouteBinder.Project.Generation

**One run for a whole project**: the tree of its routes is built, both files are rendered from this
one tree, formatted, and written one after the other. Each file is written in one step, so a failure
leaves every file either as it was or complete.
-/

namespace RouteBinder.Project

open FileSystem Route Emit Body

/-- What a run made. -/
structure Generated where
  clientPath : Path
  serverPath : Path
  routes : List RouteRow
  deriving DecidableEq, Repr, Inhabited

namespace Generation

variable [Host] [Recovery]

/-- The route tree of a project. -/
def loadTree (config : Config) : Session RouteTree := do
  let files ← Session.files
  unless files.isDirectoryAt config.appDir do
    throw (.config (.missingAppDirectory config.appDir))
  Session.take .circularReturn (Build.routeTree files config.appDir config.routeFile)

/-- A file with its text formatted. -/
def formatted (run : Formatter.Runner) (config : Config) (artifact : Artifact) :
    Except Formatter.Defect (Noted Artifact) :=
  (Formatter.format run config.formatter Formatter.timeLimit artifact.path artifact.text).map
    (·.map fun text => { artifact with text })

/-- The file for the browser and the file for the server, before they are formatted. -/
def plainArtifacts (config : Config) (tree : RouteTree) : Artifact × Artifact :=
  let specs := treeImports tree (some config.outDir)
  (⟨config.clientPath,
      assembleClient (accessorObject tree Client.member) specs config.tryCatchModule⟩,
    ⟨config.serverPath,
      assembleServer (accessorObject tree Server.member) specs config.tryCatchModule⟩)

/-- The file for the browser and the file for the server. -/
def artifacts (run : Formatter.Runner) (config : Config) (tree : RouteTree) :
    Session (Artifact × Artifact) := do
  let (client, server) := plainArtifacts config tree
  let client ← Session.take .notFormatted (formatted run config client)
  let server ← Session.take .notFormatted (formatted run config server)
  return (client, server)

/-- The steps of a write that the operating system refuses, for each destination. -/
abbrev Refusals := Path → AtomicWrite.Faults

def noRefusals : Refusals := fun _ => AtomicWrite.noFaults

/-- Writes a file. -/
def writeArtifact (artifact : Artifact) (refused : Refusals := noRefusals) : Session Unit := do
  let (files, written) :=
    AtomicWrite.write (refused artifact.path) artifact.path artifact.text.toUTF8
      (← Session.files)
  Session.setFiles files
  unless written do
    throw (.writeFailed artifact.path)

/-- Renders and writes both files of a tree. -/
def regenerate (run : Formatter.Runner) (config : Config) (tree : RouteTree)
    (refused : Refusals := noRefusals) : Session Unit := do
  let (client, server) ← artifacts run config tree
  writeArtifact client refused
  writeArtifact server refused

/-- One run for a project. -/
def generate (run : Formatter.Runner) (config : Config) : Session Generated := do
  let tree ← loadTree config
  regenerate run config tree
  return ⟨config.clientPath, config.serverPath, routeRows tree⟩

end Generation

end RouteBinder.Project
