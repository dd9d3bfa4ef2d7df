/-!
# RouteBinder.Project.Shell.Script

**Scripts.** A script is a sequence of pipelines; a pipeline is a row of commands, each of which reads
what the one before it writes. Every step of reading a script works on `Sign`s, characters that know
whether they are quoted, so a separator in quotes is never taken for a separator.

Only what a formatter on one line needs is a script: there are no control structures, no functions and
no substitution of commands.
-/

namespace RouteBinder.Project.Shell

/-- How a character of a script is quoted. -/
inductive Quoting where
  | bare
  /-- In double quotes, where parameters still have their values put in. -/
  | double
  /-- In single quotes or behind a backslash. -/
  | exact
  deriving DecidableEq, Repr, Inhabited

inductive Sign where
  | char (c : Char) (quoting : Quoting)
  /-- A quotation mark: it stands for nothing, but makes a word. -/
  | edge
  deriving DecidableEq, Repr, Inhabited

abbrev Word := List Sign

namespace Sign

/-- The signs of a script, or nothing when a quote is not closed. -/
def read : Quoting → List Char → Option (List Sign)
  | .bare, [] => some []
  | .double, [] => none
  | .exact, [] => none
  | .bare, '\\' :: c :: rest => (read .bare rest).map (char c .exact :: ·)
  | .double, '\\' :: c :: rest =>
    if c == '\\' || c == '$' || c == '\x22' then (read .double rest).map (char c .exact :: ·)
    else (read .double rest).map (char '\\' .exact :: char c .exact :: ·)
  | .bare, c :: rest =>
    if c == '\x27' then (read .exact rest).map (edge :: ·)
    else if c == '\x22' then (read .double rest).map (edge :: ·)
    else (read .bare rest).map (char c .bare :: ·)
  | .double, c :: rest =>
    if c == '\x22' then (read .bare rest).map (edge :: ·)
    else (read .double rest).map (char c .double :: ·)
  | .exact, c :: rest =>
    if c == '\x27' then (read .bare rest).map (edge :: ·)
    else (read .exact rest).map (char c .exact :: ·)

def char? : Sign → Option Char
  | char c _ => some c
  | edge => none

/-- Is this one of the characters, outside quotes? -/
def isBare (characters : List Char) : Sign → Bool
  | char c .bare => characters.contains c
  | _ => false

end Sign

/-- The pieces between separators. -/
def split (separates : Sign → Bool) : List Sign → List (List Sign)
  | [] => [[]]
  | sign :: rest =>
    match separates sign, split separates rest with
    | true, pieces => [] :: pieces
    | false, piece :: pieces => (sign :: piece) :: pieces
    | false, [] => [[sign]]

/-! ### Pipelines -/

/-- When a pipeline is run, after the one before it. -/
inductive Connector where
  | always | onSuccess | onFailure
  deriving DecidableEq, Repr, Inhabited

/-- What a pipeline is made of, before it is taken apart. -/
abbrev Segment := Connector × List Sign

/-- The pipelines of a script, of which the first one hangs on `connector`. -/
def segments (connector : Connector) : List Sign → List Segment
  | [] => [(connector, [])]
  | .char '&' .bare :: .char '&' .bare :: rest => (connector, []) :: segments .onSuccess rest
  | .char '|' .bare :: .char '|' .bare :: rest => (connector, []) :: segments .onFailure rest
  | sign :: rest =>
    if sign.isBare [';', '\n'] then (connector, []) :: segments .always rest
    else
      match segments connector rest with
      | (first, signs) :: others => (first, sign :: signs) :: others
      | [] => [(connector, [sign])]

/-! ### Commands -/

structure Command where
  words : List Word
  /-- Is the output thrown away, or sent where nobody reads it? -/
  silent : Bool := false
  deriving DecidableEq, Repr, Inhabited

/-- Cuts a word in front of a redirection; the number of a stream stays with its redirection. -/
def cutRedirection (word : Word) : List Word :=
  let (before, redirection) := word.span fun sign => !sign.isBare ['>']
  if before.isEmpty || redirection.isEmpty then [word]
  else if before == [.char '1' .bare] || before == [.char '2' .bare] then [word]
  else [before, redirection]

/-- The words of a command, redirections included. -/
def wordsOf (signs : List Sign) : List Word :=
  ((split (Sign.isBare [' ', '\t']) signs).filter (!·.isEmpty)).flatMap cutRedirection

/-- The stream that a word redirects, and where to, if it is there. -/
def redirection? : Word → Option (Char × Word)
  | .char '>' .bare :: target => some ('1', target)
  | .char stream .bare :: .char '>' .bare :: target => some (stream, target)
  | _ => none

/-- The command that some words form. -/
def Command.ofWords : List Word → Command
  | [] => ⟨[], false⟩
  | [word] =>
    match redirection? word with
    | some (stream, _) => ⟨[], stream == '1'⟩
    | none => ⟨[word], false⟩
  | word :: target :: rest =>
    match redirection? word with
    | some (stream, []) =>
      let command := ofWords rest
      ⟨command.words, command.silent || stream == '1'⟩
    | some (stream, _ :: _) =>
      let command := ofWords (target :: rest)
      ⟨command.words, command.silent || stream == '1'⟩
    | none =>
      let command := ofWords (target :: rest)
      ⟨word :: command.words, command.silent⟩

structure Pipeline where
  connector : Connector
  commands : List Command
  deriving DecidableEq, Repr, Inhabited

/-- The pipelines of a script, or nothing when it is not one. -/
def Pipeline.ofScript? (script : String) : Option (List Pipeline) :=
  (Sign.read .bare script.toList).map fun signs =>
    (segments .always signs).map fun (connector, segment) =>
      { connector
        commands := (split (Sign.isBare ['|']) segment).map fun command =>
          .ofWords (wordsOf command) }

/-! ### Parameters -/

/-- Does a sign go on with the name of a parameter? -/
def continuesName : Sign → Bool
  | .char c quoting => quoting != .exact && (c.isAlphanum || c == '_')
  | .edge => false

/-- Is a character the whole name of a parameter? -/
def isWholeName (c : Char) : Bool := c.isDigit || ['@', '*', '#', '?'].contains c

/-- The name of a parameter at the beginning of some signs, and what follows it. -/
def parameterName : List Sign → String × List Sign
  | .char c quoting :: rest =>
    if isWholeName c then (String.singleton c, rest)
    else if continuesName (.char c quoting) then
      (String.ofList (c :: (rest.takeWhile continuesName).filterMap Sign.char?),
        rest.dropWhile continuesName)
    else ("", .char c quoting :: rest)
  | signs => ("", signs)

theorem parameterName_length_le (signs : List Sign) :
    (parameterName signs).2.length ≤ signs.length := by
  unfold parameterName
  split
  · rename_i c quoting rest
    have dropped := (List.dropWhile_sublist continuesName (l := rest)).length_le
    split
    · simp
    · split
      · simp only [List.length_cons]
        omega
      · simp
  · simp

/-- The text of a word, with the values of its parameters. -/
def expand (value : String → String) : Word → String
  | [] => ""
  | .edge :: rest => expand value rest
  | .char c quoting :: rest =>
    if c == '$' && quoting != .exact then
      let parameter := parameterName rest
      if parameter.1.isEmpty then "$" ++ expand value rest
      else value parameter.1 ++ expand value parameter.2
    else String.singleton c ++ expand value rest
termination_by word => word.length
decreasing_by
  all_goals simp_wf
  have := parameterName_length_le rest
  omega

end RouteBinder.Project.Shell
