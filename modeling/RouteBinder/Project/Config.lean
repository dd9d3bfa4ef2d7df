import RouteBinder.FileSystem.FileTree
import RouteBinder.Project.Setting
import RouteBinder.Text.ShellWords

/-!
# RouteBinder.Project.Config

**Configurations.** A configuration says where the routes of a project are and where its accessors
go. Every setting has a default, may be given by a variable of the environment, and may be given
explicitly; what is explicit counts most. Directories that are given relative to the project are made
absolute.

`Config.load` refuses values that a setting does not accept, and says which settings those are.
-/

namespace RouteBinder.Project

open FileSystem Text

/-- The settings of a project. -/
inductive Key where
  | appDir | outDir | clientFile | serverFile | routeFile | tryCatchModule | formatter | debug
  deriving DecidableEq, Repr, Inhabited

namespace Key

def all : List Key :=
  [.appDir, .outDir, .clientFile, .serverFile, .routeFile, .tryCatchModule, .formatter, .debug]

/-- The name by which a setting is given explicitly. -/
def name : Key → String
  | .appDir => "app_dir"
  | .outDir => "out_dir"
  | .clientFile => "client_file"
  | .serverFile => "server_file"
  | .routeFile => "route_file_name"
  | .tryCatchModule => "try_catch_module"
  | .formatter => "formatter"
  | .debug => "debug"

def ofName? (name : String) : Option Key := all.find? (·.name == name)

/-- The variable of the environment for a setting. -/
def environmentName : Key → String
  | .appDir => "ROUTESDK_APP_DIR"
  | .outDir => "ROUTESDK_OUT_DIR"
  | .clientFile => "ROUTESDK_CLIENT_FILE"
  | .serverFile => "ROUTESDK_SERVER_FILE"
  | .routeFile => "ROUTESDK_ROUTE_FILE"
  | .tryCatchModule => "ROUTESDK_TRY_CATCH_MODULE"
  | .formatter => "ROUTESDK_FORMATTER"
  | .debug => "ROUTESDK_DEBUG"

end Key

/-- The variables of the environment. -/
abbrev Environment := List (String × String)

/-- Why there is no configuration. -/
inductive ConfigError where
  /-- The settings whose values are not accepted. -/
  | invalid (keys : List Key)
  | missingAppDirectory (path : Path)
  /-- The command line of the formatter has no words. -/
  | unreadableCommand (cause : ShellWords.Error)
  /-- A directory is given by something that is not a text. -/
  | notAPath (value : Setting)
  /-- The home directory of an unknown user is asked for. -/
  | unknownHome
  /-- A directory has a name with a null character, which no file system can be asked for. -/
  | nullCharacter
  deriving Repr, Inhabited

def ConfigError.message : ConfigError → String
  | .invalid keys => "Invalid settings: " ++ String.intercalate ", " (keys.map Key.name)
  | .missingAppDirectory path => "App directory does not exist: " ++ path.render
  | .unreadableCommand cause => cause.message
  | .notAPath _ => "A directory has to be given by a text"
  | .unknownHome => "Could not determine home directory."
  | .nullCharacter => "embedded null byte"

structure Config where
  projectRoot : Path
  /-- The directory of the routes. -/
  appDir : Path
  /-- The directory of the emitted files. -/
  outDir : Path
  clientFile : String := "client-sdk.ts"
  serverFile : String := "server-sdk.ts"
  /-- The name of the files that hold handlers. -/
  routeFile : String := "route.ts"
  /-- The module that catches what replayed bodies throw. -/
  tryCatchModule : String := "../utils/tryCatch.ts"
  /-- The command of the formatter; empty when nothing is to be formatted. -/
  formatter : List String := []
  debug : Bool := false
  deriving DecidableEq, Repr, Inhabited

namespace Config

variable [Host]

/-- The path of an emitted file. -/
def artifactPath (config : Config) (name : String) : Path := config.outDir.join (.ofString name)

def clientPath (config : Config) : Path := config.artifactPath config.clientFile

def serverPath (config : Config) : Path := config.artifactPath config.serverFile

/-! ### Values from the environment -/

/-- Words that switch something off. -/
def offWords : List String := ["", "0", "false", "no", "off", "none"]

def isOff (word : String) : Bool := offWords.contains (lowerAscii (trim word))

/-- The words of a formatter's command line; a word that switches off leaves none. -/
def commandOf (line : String) : Except ConfigError (List String) :=
  if isOff line then .ok [] else (ShellWords.split line).mapError .unreadableCommand

/-- The setting that the text of a variable stands for. -/
def ofVariable (key : Key) (text : String) : Except ConfigError Setting :=
  match key with
  | .debug => .ok (.flag (!isOff text))
  | .formatter => (commandOf text).map fun words => .list (words.map .text)
  | _ => .ok (.text text)

/-- The settings that the environment gives. -/
def ofEnvironment (environment : Environment) : Except ConfigError (List (Key × Setting)) :=
  (Key.all.filterMap fun key => (environment.lookup key.environmentName).map (key, ·)).mapM
    fun (key, text) => (ofVariable key text).map (key, ·)

/-! ### Directories -/

/-- The home directory that a tilde stands for, with the name of a user behind it or without. Without
one, the environment knows better than the list of accounts. -/
def homeOf? (environment : Environment) (user : String) : Option String :=
  if user.isEmpty then environment.lookup "HOME" <|> Host.ownHome? else Host.homeOf? user

/-- The path of a home directory, whose last slashes do not count. -/
def homePath? (home : String) : Option Path :=
  match dropEndWhile (· == '/') home.toList with
  | [] => some (.ofString "/")
  -- A home directory that is given by a tilde itself is not known.
  | '~' :: _ => none
  | home => some (.ofString (String.ofList home))

/-- A path with a leading tilde replaced by a home directory. -/
def expandHome (environment : Environment) (path : Path) : Except ConfigError Path :=
  match path.anchor, path.parts with
  | .relative, first :: rest =>
    match first.toList with
    | '~' :: user =>
      if hasNull first then .error .nullCharacter
      else
        match (homeOf? environment (String.ofList user)).bind homePath? with
        | some home => .ok { home with parts := home.parts ++ rest }
        | none => .error .unknownHome
    | _ => .ok path
  | _, _ => .ok path

/-- The absolute path of a directory, which the file system is asked for. -/
def resolved (path : Path) : Except ConfigError Path :=
  if path.parts.any hasNull then .error .nullCharacter else .ok path.resolve

/-- The directory that a setting names. A relative one belongs to the project. -/
def directoryOf (environment : Environment) (root : Path) :
    Setting → Except ConfigError Path
  | .text text => do
    let path ← expandHome environment (.ofString text)
    if path.isAbsolute then return path else resolved (root.join path)
  | value => .error (.notAPath value)

/-- The directory of a project's routes: the one below `src` only counts when it is the only one. -/
def findAppDir (files : FileTree) (root : Path) : Path :=
  let app := root.child "app"
  let nested := (root.child "src").child "app"
  if !files.isDirectoryAt app && files.isDirectoryAt nested then nested else app

/-- The formatter that is installed in a project, or else on the machine. -/
def installedFormatter (files : FileTree) (root : Path) : List String :=
  let path := ((root.child "node_modules").child ".bin").child "prettier"
  if files.isFileAt path then [path.render] else (Host.program? "prettier").toList

/-! ### Validation -/

/-- A name without a directory. -/
def isBareName (name : String) : Bool :=
  !name.isEmpty && !name.toList.contains '/' && !name.toList.contains '\\'

/-- Does a setting accept a value? -/
def accepts (key : Key) (value : Setting) : Bool :=
  match key with
  | .clientFile | .serverFile | .routeFile => value.asText?.any isBareName
  | .tryCatchModule => value.asText?.isSome
  | .formatter => value.asTexts?.isSome
  | .debug => value.asFlag?.isSome
  | .appDir | .outDir => true

/-- The settings whose given values they do not accept. -/
def rejected (given : Key → Option Setting) : List Key :=
  Key.all.filter fun key => (given key).any (!accepts key ·)

/-! ### Loading -/

/-- The formatter as a list of words, however it is given. -/
def formatterSetting (files : FileTree) (root : Path) :
    Option Setting → Except ConfigError Setting
  | none => .ok (.list ((installedFormatter files root).map .text))
  | some (.text line) => (commandOf line).map fun words => .list (words.map .text)
  | some value => .ok value

/-- The configuration of a project. `overrides` are the settings that are given explicitly. -/
def load (files : FileTree) (environment : Environment) (project : Path)
    (overrides : List (Key × Setting)) : Except ConfigError Config := do
  let root ← resolved (← expandHome environment project)
  let fromEnvironment ← ofEnvironment environment
  let given := fun key => overrides.lookup key <|> fromEnvironment.lookup key
  let appDir ← (given .appDir).mapM (directoryOf environment root)
  let outDir ← (given .outDir).mapM (directoryOf environment root)
  let formatter ← formatterSetting files root (given .formatter)
  let given := fun key => if key == .formatter then some formatter else given key
  match rejected given with
  | [] =>
    let standard : Config :=
      { projectRoot := root
        appDir := appDir.getD (findAppDir files root)
        outDir := outDir.getD (root.child "api") }
    let text := fun key fallback => ((given key).bind Setting.asText?).getD fallback
    return { standard with
      clientFile := text .clientFile standard.clientFile
      serverFile := text .serverFile standard.serverFile
      routeFile := text .routeFile standard.routeFile
      tryCatchModule := text .tryCatchModule standard.tryCatchModule
      formatter := (formatter.asTexts?).getD []
      debug := ((given .debug).bind Setting.asFlag?).getD standard.debug }
  | keys => throw (.invalid keys)

end Config

end RouteBinder.Project
