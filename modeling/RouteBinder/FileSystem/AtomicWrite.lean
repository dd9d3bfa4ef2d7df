import RouteBinder.FileSystem.FileTree

/-!
# RouteBinder.FileSystem.AtomicWrite

**Writing a file in one step.** The new content goes to a temporary file beside the destination,
which then takes the destination's place. So whoever reads the destination finds its old content or
its new content, and never a part of one of them.

Any step may fail, because something stands in the way or because the operating system refuses it.
The steps that it refuses are a parameter, so that what is left behind can be stated for every way to
fail: the destination is as it was, and the temporary file is gone. Directories that were made stay.
-/

namespace RouteBinder.FileSystem

namespace AtomicWrite

variable [Host]

/-- The steps of a write. -/
inductive Step where
  /-- Making one of the directories above the destination: the one that so many names lead to. -/
  | makeParent (depth : Nat)
  /-- Making an empty temporary file. -/
  | createTemporary
  /-- Writing the content to the temporary file. -/
  | fill
  /-- Closing the temporary file. -/
  | close
  /-- Putting the temporary file in the destination's place. -/
  | replace
  deriving DecidableEq, Repr

/-- The steps that the operating system refuses. -/
abbrev Faults := Step → Bool

def noFaults : Faults := fun _ => false

/-- A step that is not refused. -/
def Faults.guard {α : Type} (faults : Faults) (step : Step) (result : Option α) : Option α :=
  if faults step then none else result

/-- Makes the directory that the names lead to. One that is there is not made again, so nobody can refuse
it. -/
def makeParent (faults : Faults) (names : List String) (files : FileTree) : Option FileTree :=
  let made := FileTree.ensureDirectory (Path.mk .root names).normalize.parts files
  if files.isDirectoryAt ⟨.root, names⟩ then made else faults.guard (.makeParent names.length) made

/-- Makes the directories that the names pass through, where `passed` leads to the first of them. The
second part of the result says whether all of them are there; if not, those in front of the first one that
is refused, or that a file stands in the way of, are. -/
def makeParents (faults : Faults) (passed : List String) :
    List String → FileTree → FileTree × Bool
  | [], files => (files, true)
  | name :: rest, files =>
    match makeParent faults (passed ++ [name]) files with
    | none => (files, false)
    | some made => makeParents faults (passed ++ [name]) rest made

/-- The length of the longest name. -/
def longest (names : List String) : Nat := (names.map String.length).foldl max 0

/-- A name for a temporary file. It is longer than every taken name, so it is new. -/
def temporaryName (taken : List String) (name : String) : String :=
  "." ++ name ++ "." ++ String.ofList (List.replicate (longest taken) '0') ++ ".tmp"

/-- The temporary file for a destination. -/
def temporaryFor (files : FileTree) (destination : Path) : Path :=
  let taken := ((files.find? destination.parent).map FileTree.entries).getD []
  destination.parent.child (temporaryName (taken.map (·.1)) destination.name)

/-- Puts one file in the place of another, or of nothing. -/
def moveFile (files : FileTree) (source destination : Path) : Option FileTree := do
  let content ← files.content? source
  (files.removeAt source).writeFile destination content

/-- Writes a file in one step, or leaves it as it was. The second part of the result says whether
the file is written. -/
def write (faults : Faults) (destination : Path) (content : ByteArray) (files : FileTree) :
    FileTree × Bool :=
  match makeParents faults [] (Path.workingDirectory.join destination.parent).parts files with
  | (made, false) => (made, false)
  | (made, true) =>
    let temporary := temporaryFor made destination
    match faults.guard .createTemporary (made.writeFile temporary .empty) with
    | none => (made, false)
    | some created =>
      let finish : Option FileTree := do
        let filled ← faults.guard .fill (created.writeFile temporary content)
        let closed ← faults.guard .close (some filled)
        faults.guard .replace (moveFile closed temporary destination)
      match finish with
      | none => (created.removeAt temporary, false)
      | some written => (written, true)

end AtomicWrite

end RouteBinder.FileSystem
