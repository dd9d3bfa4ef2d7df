import RouteBinder.Body.Fragment
import RouteBinder.FileSystem.Path
import RouteBinder.Project.Formatter
import RouteBinder.Project.Shell.Program
import RouteBinder.Project.Shell.Script

/-!
# RouteBinder.Project.Shell.Run

**Running commands** without an operating system. A command is a shell with a script, or one of the
installed programs; every other command cannot be started. Running is a function of the command and
its input, so whatever is built on a formatter has a value.

Work that is done with this shell has no operating system around it, and no parser but the grammar: it
takes place on `Host.solitary`, with `Recovery.verbatim`.
-/

namespace RouteBinder.Project.Shell

instance host : FileSystem.Host := .solitary

instance recovery : Body.Recovery := .verbatim

/-- A script that is being run. -/
structure State where
  bindings : List (String × String) := []
  arguments : List String := []
  /-- The input that no command has read. -/
  input : ByteArray := .empty
  output : ByteArray := .empty
  status : Nat := 0
  elapsed : Nat := 0
  stopped : Bool := false

namespace State

/-- The value of a parameter; `$0` is the first argument. -/
def value (state : State) (name : String) : String :=
  match name with
  | "@" | "*" => String.intercalate " " (state.arguments.drop 1)
  | "#" => toString (state.arguments.length - 1)
  | "?" => toString state.status
  | _ =>
    match name.toNat? with
    | some index => state.arguments[index]?.getD ""
    | none => (state.bindings.lookup name).getD ""

def searchPath (state : State) : List String := (state.value "PATH").splitOn ":"

/-- The state after a program, whose output goes to the script's output unless it is silent. -/
def after (state : State) (silent : Bool) (effect : Effect) : State :=
  { state with
    input := effect.unread
    output := if silent then state.output else state.output ++ effect.output
    status := effect.status
    elapsed := state.elapsed + effect.elapsed }

/-- The status of a command that is not found. -/
def notFound : Nat := 127

/-- Calls a program. -/
def call (state : State) (silent : Bool) (name : String) (arguments : List String) : State :=
  match Program.named? state.searchPath name with
  | some program => state.after silent (program arguments state.input)
  | none => { state with status := notFound }

/-- The name and the value of an assignment. -/
def assignment? (text : String) : Option (String × String) :=
  let (name, rest) := text.toList.span fun c => c.isAlphanum || c == '_'
  match name, rest with
  | first :: _, '=' :: value =>
    if first.isDigit then none else some (String.ofList name, String.ofList value)
  | _, _ => none

/-- Runs a command, of which all words have their values. -/
def run (silent : Bool) : List String → State → State
  | [], state => state
  | name :: arguments, state =>
    match assignment? name with
    | some binding => run silent arguments { state with bindings := binding :: state.bindings }
    | none =>
      match name, arguments with
      | "exit", _ =>
        let status := (arguments.head?.bind String.toNat?).getD state.status
        { state with status, stopped := true }
      | "exec", program :: arguments =>
        { state.call silent program arguments with stopped := true }
      | _, _ => state.call silent name arguments

def runCommand (state : State) (command : Command) : State :=
  run command.silent (command.words.map (expand state.value)) state

/-- Runs the commands of a pipeline. A command on its own may change the state of the script; in a
longer row each has a copy. -/
def pipe (state : State) : List Command → State
  | [] => state
  | [command] => runCommand state command
  | first :: second :: rest =>
    let done := runCommand { state with output := .empty } first
    let last := pipe { state with input := done.output, elapsed := done.elapsed } (second :: rest)
    { last with
      bindings := state.bindings
      input := done.input
      stopped := state.stopped }

/-- Runs a pipeline, if its turn comes. -/
def runPipeline (state : State) (pipeline : Pipeline) : State :=
  let due :=
    match pipeline.connector with
    | .always => true
    | .onSuccess => state.status == 0
    | .onFailure => state.status != 0
  if due && !state.stopped then pipe state pipeline.commands else state

end State

/-- The status of a script that cannot be read. -/
def unreadable : Nat := 2

/-- What a shell does with a script. -/
def runScript (script : String) (arguments : List String) (input : ByteArray) : Effect :=
  match Pipeline.ofScript? script with
  | none => { status := unreadable }
  | some pipelines =>
    let final := pipelines.foldl State.runPipeline { arguments, input : State }
    { output := final.output
      status := final.status
      unread := final.input
      elapsed := final.elapsed }

/-- The names of shells. -/
def shells : List String := ["sh", "bash", "dash"]

/-- What a command does, if it can be started. There is no search path outside scripts. -/
def effect? (command : List String) (input : ByteArray) : Option Effect :=
  match command with
  | [] => none
  | name :: arguments =>
    match Program.nameAt? name, arguments with
    | none, _ => none
    | some installed, "-c" :: script :: arguments =>
      if shells.contains installed then some (runScript script arguments input)
      else (Program.named? [] name).map (· ("-c" :: script :: arguments) input)
    | some _, _ => (Program.named? [] name).map (· arguments input)

/-- Runs commands. Nothing is known of what they write to their error streams. -/
def run : Formatter.Runner := fun command input limit =>
  if command.any Text.hasNull then .malformed
  else
    match effect? command input.toUTF8 with
    | none => .notStarted
    | some effect =>
      if limit ≤ effect.elapsed then .timedOut else .exited effect.status effect.output .empty

end RouteBinder.Project.Shell
