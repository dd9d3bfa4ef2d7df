/-!
# RouteBinder.Project.Shell.Program

**Programs that scripts can call.** A program is a function of its arguments and its input. The ones
here are the text filters and helpers that a formatter on one line is made of.
-/

namespace RouteBinder.Project.Shell

/-- What a program did. -/
structure Effect where
  output : ByteArray := .empty
  status : Nat := 0
  /-- The input that it did not read. -/
  unread : ByteArray := .empty
  /-- How long it took, in milliseconds. -/
  elapsed : Nat := 0
  deriving Inhabited

abbrev Program := (arguments : List String) → (input : ByteArray) → Effect

namespace Program

/-- A program that only writes a text. -/
def printing (text : String) (input : ByteArray) : Effect :=
  { output := text.toUTF8, unread := input }

/-- A program that only fails. -/
def failing (input : ByteArray) : Effect := { status := 1, unread := input }

/-! ### Texts -/

/-- The value of an octal digit. -/
def octal? (c : Char) : Option Nat :=
  if '0' ≤ c && c ≤ '7' then some (c.toNat - '0'.toNat) else none

/-- The bytes of a character. -/
def bytesOf (c : Char) : List UInt8 := (String.singleton c).toUTF8.toList

/-- The bytes that a character stands for behind a backslash. -/
def escaped (c : Char) : List UInt8 :=
  match c with
  | 'n' => bytesOf '\n'
  | 't' => bytesOf '\t'
  | 'r' => bytesOf '\r'
  | '\\' => bytesOf '\\'
  | _ => bytesOf '\\' ++ bytesOf c

/-- The bytes that a text with backslash escapes stands for. Three octal digits name a byte. -/
def unescape : List Char → List UInt8
  | [] => []
  | '\\' :: a :: b :: c :: rest =>
    match octal? a, octal? b, octal? c with
    | some a, some b, some c => UInt8.ofNat (64 * a + 8 * b + c) :: unescape rest
    | _, _, _ => escaped a ++ unescape (b :: c :: rest)
  | '\\' :: c :: rest => escaped c ++ unescape rest
  | c :: rest => bytesOf c ++ unescape rest

/-- A format with the arguments in the places that are kept for texts. -/
def fill : List Char → List String → List Char
  | [], _ => []
  | '%' :: '%' :: rest, arguments => '%' :: fill rest arguments
  | '%' :: 's' :: rest, argument :: arguments => argument.toList ++ fill rest arguments
  | '%' :: 's' :: rest, [] => fill rest []
  | c :: rest, arguments => c :: fill rest arguments

/-- The number of milliseconds in a number of seconds. -/
def milliseconds? (text : String) : Option Nat :=
  match text.splitOn "." with
  | [whole] => whole.toNat?.map (1000 * ·)
  | [whole, fraction] =>
    match whole.toNat?, fraction.toNat? with
    | some seconds, some digits => some (1000 * seconds + digits * 1000 / Nat.pow 10 fraction.length)
    | _, _ => none
  | _ => none

/-! ### Character sets -/

/-- The bytes between two bytes. -/
def range (first last : UInt8) : List UInt8 :=
  (List.range (last.toNat + 1 - first.toNat)).map fun n => UInt8.ofNat (first.toNat + n)

/-- The bytes that a set names: ranges are written with a dash. -/
def members : List UInt8 → List UInt8
  | [] => []
  | first :: dash :: last :: rest =>
    if dash == '-'.toUInt8 then range first last ++ members rest
    else first :: members (dash :: last :: rest)
  | first :: rest => first :: members rest

/-- The classes of letters that sets can be named by. -/
def classes : List (String × List UInt8) :=
  [("[:lower:]", range 'a'.toUInt8 'z'.toUInt8), ("[:upper:]", range 'A'.toUInt8 'Z'.toUInt8)]

def setOf (text : String) : List UInt8 :=
  match classes.lookup text with
  | some bytes => bytes
  | none => members (unescape text.toList)

/-- The byte that takes the place of another one: the last replacement stands for all missing ones. -/
def exchange (source target : List UInt8) (byte : UInt8) : UInt8 :=
  match source.idxOf? byte with
  | some index => (target[index]?.orElse fun _ => target.getLast?).getD byte
  | none => byte

/-! ### The programs -/

def cat : Program
  | [], input => { output := input }
  | ["-"], input => { output := input }
  | _, input => failing input

def echo : Program
  | "-n" :: arguments, input => printing (String.intercalate " " arguments) input
  | arguments, input => printing (String.intercalate " " arguments ++ "\n") input

def printf : Program
  | format :: arguments, input =>
    { output := ⟨(unescape (fill format.toList arguments)).toArray⟩, unread := input }
  | [], input => failing input

def tr : Program
  | ["-d", unwanted], input =>
    { output := ⟨(input.toList.filter (!(setOf unwanted).contains ·)).toArray⟩ }
  | [source, target], input =>
    { output := ⟨(input.toList.map (exchange (setOf source) (setOf target))).toArray⟩ }
  | _, input => failing input

/-- The last name of a path, without a certain ending. -/
def baseName (path ending : String) : String :=
  let name := ((path.splitOn "/").filter (!·.isEmpty)).getLast?.getD "/"
  if !ending.isEmpty && name != ending && ending.toList.isSuffixOf name.toList then
    String.ofList (name.toList.take (name.length - ending.length))
  else name

def basename : Program
  | [path], input => printing (baseName path "" ++ "\n") input
  | [path, ending], input => printing (baseName path ending ++ "\n") input
  | _, input => failing input

def sleep : Program
  | [time], input =>
    match milliseconds? time with
    | some elapsed => { unread := input, elapsed }
    | none => failing input
  | _, input => failing input

def succeed : Program := fun _ input => printing "" input

def fail : Program := fun _ input => failing input

/-- The programs that a shell has itself. -/
def builtin : List (String × Program) :=
  [("echo", echo), ("printf", printf), ("true", succeed), (":", succeed), ("false", fail)]

/-- The programs that have a file of their own. -/
def installed : List (String × Program) :=
  [("cat", cat), ("tr", tr), ("basename", basename), ("sleep", sleep), ("echo", echo),
    ("printf", printf), ("true", succeed), ("false", fail)]

/-- The directories in which programs are installed. -/
def directories : List String := ["/bin", "/usr/bin"]

/-- The name of the installed program that a path leads to. -/
def nameAt? (path : String) : Option String :=
  directories.findSome? fun directory =>
    let before := (directory ++ "/").toList
    if before.isPrefixOf path.toList then some (String.ofList (path.toList.drop before.length))
    else none

/-- The program that a command name stands for. A name without a directory is looked for in the
directories of the search path. -/
def named? (searchPath : List String) (name : String) : Option Program :=
  match nameAt? name with
  | some installedName => installed.lookup installedName
  | none =>
    builtin.lookup name <|>
      if searchPath.any directories.contains then installed.lookup name else none

end Program

end RouteBinder.Project.Shell
