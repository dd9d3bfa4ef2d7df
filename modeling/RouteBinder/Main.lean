import RouteBinder.Diagnostics
import RouteBinder.Project.CommandLine
import RouteBinder.Project.Shell.Run

/-!
# RouteBinder.Main

**The program.** It reads the directories that the arguments name, does what they ask for on the tree
that it has read, and writes the files that are new or different. Lines go to the output; notices go to
the diagnostics, if their level is shown.
-/

namespace RouteBinder.Main

open FileSystem Project

/-- The variables that the program looks at. -/
def variableNames : List String :=
  ["HOME", "ROUTESDK_LOG_LEVEL"] ++ Key.all.map Key.environmentName

def readEnvironment : IO Environment :=
  variableNames.filterMapM fun name => do
    return (← IO.getEnv name).map (name, ·)

/-- The fields of the lines of the list of accounts. -/
def readAccounts : IO (List (List String)) := do
  let list := (← IO.currentDir) / "/etc/passwd"
  if ← list.pathExists then
    return (← IO.FS.lines list).toList.map (·.splitOn ":")
  else return []

/-- The place of a program in the directories that the environment names. -/
def findProgram? (name : String) : IO (Option String) := do
  let here ← IO.currentDir
  let directories := ((← IO.getEnv "PATH").getD "").splitOn ":"
  let places := directories.map fun directory => (directory ++ "/" ++ name, here / directory / name)
  let found ← places.filterM fun (_, place) => return (← place.pathExists) && !(← place.isDir)
  return found.head?.map (·.1)

/-- The machine that the program was started on. -/
def readHost : IO Host := do
  let homes := (← readAccounts).filterMap fun fields =>
    match fields with
    | [name, _, _, _, _, home, _] => some (name, home)
    | _ => none
  let user := (← IO.getEnv "USER").getD ""
  let formatter ← findProgram? "prettier"
  return {
    workingNames := (Path.ofString (← IO.currentDir).toString).parts.filter Path.isFileName
    isFileName_of_mem := fun _ h => (List.mem_filter.1 h).2
    ownHome? := homes.lookup user
    homeOf? := fun name => homes.lookup name
    program? := fun name => if name == "prettier" then formatter else none }

variable [Host]

/-- The tree below a directory, without the directories that are never looked into. -/
partial def readTree (path : String) : IO FileTree := do
  let place := (← IO.currentDir) / path
  if ← place.isDir then
    let names := (← place.readDir).toList.map (·.fileName)
    let entries ← (names.filter (!RouteFiles.isIgnored ·)).mapM fun name => do
      return (name, ← readTree (path ++ "/" ++ name))
    return .directory (entries.foldl (fun tree (name, entry) => Keyed.put name entry tree) [])
  else return .file (← IO.FS.readBinFile place)

/-- The tree with the part of the disk that is below a path. -/
def readInto (files : FileTree) (path : Path) : IO FileTree := do
  if ← ((← IO.currentDir) / path.render).pathExists then
    return (FileTree.insert (← readTree path.render) path.resolve.parts files).getD files
  else return files

/-- The directories that an invocation is about. -/
def roots (invocation : CommandLine.Invocation) (environment : Environment) (here : Path) :
    List Path :=
  match invocation.projectRoot environment here with
  | .error _ => []
  | .ok project =>
    let given := fun (key : Key) (explicit : Option String) =>
      ((explicit <|> environment.lookup key.environmentName).bind fun text =>
        (Config.directoryOf environment project (.text text)).toOption).toList
    project :: given .appDir invocation.appDir ++ given .outDir invocation.outDir

/-- The files that differ between two trees. -/
def changedFiles (before after : FileTree) : List (Path × ByteArray) :=
  (after.filesBelow []).filterMap fun names =>
    let path := FileSystem.Path.mk .root names
    match after.content? path with
    | some content => if before.content? path == some content then none else some (path, content)
    | none => none

/-- Writes a file in one step. -/
def writeBack (before : FileTree) (path : Path) (content : ByteArray) : IO Unit := do
  let here ← IO.currentDir
  let temporary := here / (AtomicWrite.temporaryFor before path).render
  IO.FS.createDirAll (here / path.parent.render)
  IO.FS.writeBinFile temporary content
  IO.FS.rename temporary (here / path.render)

/-- The notices that the root logger shows. -/
def shownNotices (environment : Environment) (debug : Bool) (notices : List Notice) : List Notice :=
  let level := Diagnostics.rootLevel (environment.lookup "ROUTESDK_LOG_LEVEL") debug
  notices.filter fun notice => level ≤ Diagnostics.levelOfName notice.level

/-- Does what the arguments ask for, and gives the status to end with. -/
def run (arguments : List String) : IO Nat := do
  let environment ← readEnvironment
  let here := Path.workingDirectory
  let request := CommandLine.Request.ofArguments false arguments
  let (directories, debug) := match request with
    | .invoke invocation => (roots invocation environment here, invocation.debug)
    | _ => ([], false)
  let before ← directories.foldlM readInto (.directory [])
  let (report, workspace) :=
    CommandLine.answer Shell.run environment here arguments { files := before }
  for (path, content) in changedFiles before workspace.files do
    writeBack before path content
  for notice in shownNotices environment debug workspace.notices do
    IO.eprintln notice.line
  for line in report.lines do
    IO.println line
  return report.status

end RouteBinder.Main

def main (arguments : List String) : IO UInt32 := do
  try
    let _ ← RouteBinder.Main.readHost
    return UInt32.ofNat (← RouteBinder.Main.run arguments)
  catch error =>
    IO.eprintln error.toString
    return UInt32.ofNat RouteBinder.Project.CommandLine.failed
