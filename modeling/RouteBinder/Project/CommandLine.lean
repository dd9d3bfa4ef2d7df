import RouteBinder.Project.Generation
import RouteBinder.Text.Styled

/-!
# RouteBinder.Project.CommandLine

**The command line.** `generate` writes both files of a project, `routes` only counts its routes. A
`Request` is what the arguments ask for; `answer` does it and says with which status and which lines
the program ends.

Options may stand between the other arguments; behind two dashes everything is an ordinary argument.
The value of an option is the next argument, whatever it looks like, or what follows an equals sign.
-/

namespace RouteBinder.Project

open FileSystem Text Body

namespace CommandLine

variable [Host] [Recovery]

inductive Command where
  | generate | routes
  deriving DecidableEq, Repr, Inhabited

namespace Command

def all : List Command := [.generate, .routes]

def name : Command → String
  | .generate => "generate"
  | .routes => "routes"

def ofName? (name : String) : Option Command := all.find? (·.name == name)

/-- The options that have a value. -/
def valued : Command → List String
  | .generate => ["--app-dir", "--out-dir"]
  | .routes => ["--app-dir"]

/-- The options without a value. -/
def flags : Command → List String
  | .generate => ["--no-format", "--debug", "--help"]
  | .routes => ["--debug", "--help"]

end Command

/-! ### Arguments -/

/-- The arguments of a command, sorted by what they are. -/
structure Arguments where
  values : List (String × String) := []
  flags : List String := []
  /-- Those that belong to no option. -/
  ordinary : List String := []
  deriving DecidableEq, Repr, Inhabited

def isOption (argument : String) : Bool :=
  argument.length > 1 && argument.toList.head? == some '-'

/-- An option and what follows its first equals sign. -/
def cutOption (argument : String) : String × Option String :=
  let (name, rest) := argument.toList.span (· != '=')
  (String.ofList name, rest.tail?.map String.ofList)

/-- Adds arguments to those that have been read, or nothing when one is wrong. `pending` is an option
whose value comes next. -/
def Arguments.read (command : Command) :
    (pending : Option String) → (seen : Arguments) → List String → Option Arguments
  | none, seen, [] => some seen
  | some _, _, [] => none
  | some name, seen, value :: rest =>
    read command none { seen with values := (name, value) :: seen.values } rest
  | none, seen, argument :: rest =>
    if argument == "--" then some { seen with ordinary := seen.ordinary ++ rest }
    else if isOption argument then
      let (name, value) := cutOption argument
      if command.flags.contains name then
        if value.isSome then none
        else read command none { seen with flags := name :: seen.flags } rest
      else if command.valued.contains name then
        match value with
        | some value => read command none { seen with values := (name, value) :: seen.values } rest
        | none => read command (some name) seen rest
      else none
    else read command none { seen with ordinary := seen.ordinary ++ [argument] } rest

/-- What a command is to be done with. -/
structure Invocation where
  command : Command
  project : String := "."
  appDir : Option String := none
  outDir : Option String := none
  unformatted : Bool := false
  debug : Bool := false
  deriving DecidableEq, Repr, Inhabited

/-- What the arguments of the program ask for. -/
inductive Request where
  | help
  | misuse
  | invoke (invocation : Invocation)
  deriving DecidableEq, Repr, Inhabited

/-- What the arguments of a command ask for. -/
def Request.ofCommand (command : Command) (arguments : List String) : Request :=
  match Arguments.read command none {} arguments with
  | none => .misuse
  | some read =>
    if read.flags.contains "--help" then .help
    else if read.ordinary.length > 1 then .misuse
    else .invoke
      { command
        project := read.ordinary.head?.getD "."
        appDir := read.values.lookup "--app-dir"
        outDir := read.values.lookup "--out-dir"
        unformatted := read.flags.contains "--no-format" || command == .routes
        debug := read.flags.contains "--debug" }

/-- What a command name and the arguments behind it ask for. -/
def Request.ofNamed (helps : Bool) : List String → Request
  | [] => if helps then .help else .misuse
  | name :: arguments =>
    if helps then .help
    else
      match Command.ofName? name with
      | some command => .ofCommand command arguments
      | none => .misuse

/-- What the arguments ask for; `helps` says whether help has been asked for in front of them. -/
def Request.ofArguments (helps : Bool) : List String → Request
  | [] => .ofNamed helps []
  | argument :: rest =>
    if argument == "--" then .ofNamed helps rest
    else if argument == "--help" then ofArguments true rest
    else if isOption argument then .misuse
    else .ofNamed helps (argument :: rest)

/-! ### Answers -/

/-- How the program ends. -/
structure Report where
  status : Nat
  lines : List String := []
  deriving DecidableEq, Repr, Inhabited

def succeeded : Nat := 0
def failed : Nat := 1
def misused : Nat := 2

/-- The status for a project without a configuration. -/
def statusOf : ConfigError → Nat
  | .invalid _ => misused
  | .missingAppDirectory _ => misused
  | .unreadableCommand _ => failed
  | .notAPath _ => failed
  | .unknownHome => failed
  | .nullCharacter => failed

/-- The settings that an invocation gives explicitly. -/
def Invocation.overrides (invocation : Invocation) : List (Key × Setting) :=
  (invocation.appDir.map fun text => (.appDir, .text text)).toList ++
    (invocation.outDir.map fun text => (.outDir, .text text)).toList ++
    (if invocation.debug then [(.debug, .flag true)] else []) ++
    (if invocation.unformatted then [(.formatter, .list [])] else [])

/-- The directory of the project that an invocation names, seen from the directory `here`. -/
def Invocation.projectRoot (invocation : Invocation) (environment : Environment) (here : Path) :
    Except ConfigError Path :=
  (Config.expandHome environment (.ofString invocation.project)).bind fun project =>
    Config.resolved (here.join project)

/-- The configuration for an invocation, or the status to end with. -/
def Invocation.config (invocation : Invocation) (environment : Environment) (here : Path)
    (files : FileTree) : Except Nat Config := do
  let project ← (invocation.projectRoot environment here).mapError statusOf
  unless files.isDirectoryAt project do
    throw misused
  let config ← (Config.load files environment project invocation.overrides).mapError statusOf
  unless files.isDirectoryAt config.appDir do
    throw misused
  return config

/-- The lines that say what has been written. -/
def generatedLines (config : Config) (generated : Generated) : List String :=
  ["routesdk generate: " ++ config.appDir.render,
    "Routes found: " ++ toString generated.routes.length,
    "Client SDK: " ++ generated.clientPath.render,
    "Server SDK: " ++ generated.serverPath.render].map unstyled

/-- The lines that say how many routes there are. -/
def countLines (files routes : Nat) : List String :=
  ["Route files: " ++ toString files, "Routes: " ++ toString routes]

/-- Does what a command asks for. -/
def perform (run : Formatter.Runner) (config : Config) : Command → Session (List String)
  | .generate => return generatedLines config (← Generation.generate run config)
  | .routes => do
    let tree ← Generation.loadTree config
    let found := RouteFiles.scan (← Session.files) config.appDir config.routeFile
    return countLines found.length (Emit.routeRows tree).length

/-- Does what the arguments ask for, in the directory `here`. -/
def answer (run : Formatter.Runner) (environment : Environment) (here : Path)
    (arguments : List String) (workspace : Workspace) : Report × Workspace :=
  match Request.ofArguments false arguments with
  | .help => (⟨succeeded, []⟩, workspace)
  | .misuse => (⟨misused, []⟩, workspace)
  | .invoke invocation =>
    match invocation.config environment here workspace.files with
    | .error status => (⟨status, []⟩, workspace)
    | .ok config =>
      match (perform run config invocation.command).runOn workspace with
      | (.ok lines, workspace) => (⟨succeeded, lines⟩, workspace)
      | (.error _, workspace) => (⟨failed, []⟩, workspace)

end CommandLine

end RouteBinder.Project
