import RouteBinder.Notice
import RouteBinder.Text.Utf8

/-!
# RouteBinder.Project.Formatter

**External formatters.** A formatter is a command that is given a text and the path which the text is
meant for, and answers with the formatted text. What becomes of the command is up to its `Runner`;
here it is only decided what follows from that. A formatter that fails is reported, and the text stays as
it is. There are two exceptions, the `Defect`s: output that is no text, and a command that cannot even be
tried.
-/

namespace RouteBinder.Project

open FileSystem Text

namespace Formatter

/-- What became of a command. -/
inductive Outcome where
  /-- A word of the command has a null character, so that no process can be given it. -/
  | malformed
  | notStarted
  /-- It ended; the status is negative when a signal ended it. -/
  | exited (status : Int) (output errors : ByteArray)
  | timedOut
  deriving Inhabited

/-- Why a formatter leaves no text at all. -/
inductive Defect where
  | nullCharacter
  /-- The output is not UTF-8. -/
  | undecodableOutput (output : List UInt8)
  deriving DecidableEq, Repr, Inhabited

def Defect.message : Defect → String
  | .nullCharacter => "embedded null byte"
  | .undecodableOutput output => Utf8.complaint output

/-- Runs a command on an input, for at most the given number of milliseconds. -/
abbrev Runner := (command : List String) → (input : String) → (limit : Nat) → Outcome

/-- The time that a formatter is given, in milliseconds. -/
def timeLimit : Nat := 30000

/-- Whole seconds, rounded to the nearest, of two equally near ones to the even one. -/
def seconds (milliseconds : Nat) : Nat :=
  let whole := milliseconds / 1000
  let rest := milliseconds % 1000
  if rest < 500 || (rest == 500 && whole % 2 == 0) then whole else whole + 1

/-- What a command that failed says about it: the first line on its error stream, or else its status. -/
def reason (status : Int) (errors : ByteArray) : String :=
  match trimWhile isBlank (Utf8.lossy errors).toList with
  | [] => toString status
  | said => String.ofList (said.takeWhile (!endsLine ·))

/-- What follows from the outcome of a formatter for `text`. -/
def conclude (file text : String) (limit : Nat) : Outcome → Except Defect (Noted String)
  | .malformed => .error .nullCharacter
  | .notStarted => .ok ⟨text, [.formatFailed file none]⟩
  | .timedOut => .ok ⟨text, [.formatTimedOut file (seconds limit)]⟩
  | .exited status output errors =>
    if status == 0 then
      match String.fromUTF8? output with
      | some formatted => .ok ⟨formatted, []⟩
      | none => .error (.undecodableOutput output.toList)
    else .ok ⟨text, [.formatFailed file (some (reason status errors))]⟩

/-- A command line with the path that the text is meant for. -/
def withPath (command : List String) (path : Path) : List String :=
  command ++ ["--stdin-filepath", path.render]

/-- Formats the text of a file. An empty command leaves every text as it is. -/
def format (run : Runner) (command : List String) (limit : Nat) (path : Path) (text : String) :
    Except Defect (Noted String) :=
  if command.isEmpty then .ok ⟨text, []⟩
  else conclude path.name text limit (run (withPath command path) text limit)

end Formatter

end RouteBinder.Project
