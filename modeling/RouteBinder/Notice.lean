import RouteBinder.FileSystem.Path

/-!
# RouteBinder.Notice

**What a run reports** besides its result. Nothing that is reported here stops a run: something is
left out, kept as it was, or tried again later, and the notice says what and why.
-/

namespace RouteBinder

open FileSystem

/-- Why a route file is left out. -/
inductive SkipCause where
  | unreadable
  | syntaxErrors
  deriving DecidableEq, Repr, Inhabited

def SkipCause.message : SkipCause → String
  | .unreadable => "could not read route file"
  | .syntaxErrors => "syntax errors in route file"

/-- The cause, told of a certain file. -/
def SkipCause.messageFor (cause : SkipCause) (file : Option Path) : String :=
  match file with
  | some path => "[" ++ path.render ++ "] " ++ cause.message
  | none => cause.message

/-- Why a key path does not lead anywhere. -/
structure NavigationError where
  /-- The key that no node has. -/
  key : String
  path : List String
  deriving DecidableEq, Repr, Inhabited

def NavigationError.message (error : NavigationError) : String :=
  let path := Path.joinNames error.path
  "Could not find node for '" ++ error.key ++ "' (path: " ++
    (if path.isEmpty then "/" else path) ++ ")"

inductive Notice where
  /-- A verb is implemented twice for a route. -/
  | duplicateHandler (verb segment origin : String)
  /-- Two directories have the same key; `origin` is the folded one that the second stands in. -/
  | duplicateRoute (key segment : String) (origin : Option String)
  | skippedFile (file : Path) (cause : SkipCause)
  | droppedUpdate (cause : NavigationError) (file : Path)
  | writeFailed (destination : Path)
  /-- The reason is what the formatter says, if it was started. -/
  | formatFailed (file : String) (reason : Option String)
  | formatTimedOut (file : String) (seconds : Nat)
  deriving DecidableEq, Repr, Inhabited

namespace Notice

/-- How grave a notice is. -/
def level : Notice → String
  | .writeFailed _ => "ERROR"
  | _ => "WARNING"

def message : Notice → String
  | .duplicateHandler verb segment origin =>
    "[PARSE] Duplicate " ++ verb ++ " for '" ++ segment ++ "' from '" ++ origin ++
      "'; keeping the first"
  | .duplicateRoute key segment origin =>
    "[PARSE] Duplicate route '" ++ key ++ "' under '" ++ segment ++ "'" ++
      ((origin.map fun name => " from '" ++ name ++ "'").getD "") ++ "; keeping the first"
  | .skippedFile file cause => "[PARSE] Skipping " ++ cause.messageFor (some file)
  | .droppedUpdate cause file =>
    "[UPDATE] " ++ cause.message ++ "; dropping update for " ++ file.render
  | .writeFailed destination => "[GEN] Could not write " ++ destination.render
  | .formatFailed file reason =>
    "[PRETTIER] Could not format " ++ file ++ ((reason.map (": " ++ ·)).getD "")
  | .formatTimedOut file seconds =>
    "[PRETTIER] Timed out formatting " ++ file ++ " after " ++ toString seconds ++ "s"

/-- A line of the log. -/
def line (notice : Notice) : String := notice.level ++ ": " ++ notice.message

end Notice

/-- A result together with what was reported on the way. -/
structure Noted (α : Type) where
  value : α
  notices : List Notice := []
  deriving DecidableEq, Repr, Inhabited

namespace Noted

def map {α β : Type} (f : α → β) (noted : Noted α) : Noted β := ⟨f noted.value, noted.notices⟩

/-- Goes on with the value; what was reported before comes first. -/
def bind {α β : Type} (noted : Noted α) (f : α → Noted β) : Noted β :=
  let next := f noted.value
  ⟨next.value, noted.notices ++ next.notices⟩

instance : Monad Noted where
  pure value := ⟨value, []⟩
  bind := bind

end Noted

end RouteBinder
