import RouteBinder.Grammar.Cursor

/-!
# RouteBinder.Grammar.Literal

**The longest literal at the front of the source.** Strings, numbers, regular expressions and the
raw chunks of template strings are recognised character by character; each recogniser returns how
many characters the literal takes, or nothing when the source does not start with one.
-/

namespace RouteBinder.Grammar

open RouteBinder.Source

/-! ### Escapes and strings -/

def isOctalDigit (c : Char) : Bool := '0' ≤ c && c ≤ '7'

def isHexDigit (c : Char) : Bool :=
  c.isDigit || ('a' ≤ c && c ≤ 'f') || ('A' ≤ c && c ≤ 'F')

/-- The length of the escape sequence whose backslash has just been passed. -/
def escapeLength : List Char → Option Nat
  | [] => none
  | '\r' :: c :: _ => some (if isLineBreak c then 2 else 1)
  | 'x' :: a :: b :: _ => if isHexDigit a && isHexDigit b then some 3 else none
  | 'u' :: '\x7b' :: rest =>
    let digits := rest.takeWhile isHexDigit
    if !digits.isEmpty && (rest.drop digits.length).head? == some '\x7d'
    then some (digits.length + 3) else none
  | 'u' :: rest =>
    if rest.length ≥ 4 && (rest.take 4).all isHexDigit then some 5 else none
  | 'x' :: _ => none
  | c :: rest =>
    if isOctalDigit c then some (1 + ((rest.take 2).takeWhile isOctalDigit).length) else some 1

/-- The length of the rest of a string, its closing quote included. -/
def stringRest (quote : Char) (skip : Nat) : List Char → Option Nat
  | [] => none
  | c :: rest =>
    match skip with
    | skip + 1 => (stringRest quote skip rest).map (· + 1)
    | 0 =>
      if c == quote then some 1
      else if c == '\n' || c == '\r' then none
      else if c == '\\' then do
        let width ← escapeLength rest
        (stringRest quote width rest).map (· + 1)
      else (stringRest quote 0 rest).map (· + 1)

/-- The length of the string literal at the front. -/
def stringLength : List Char → Option Nat
  | quote :: rest =>
    if quote == '\x27' || quote == '\x22' then (stringRest quote 0 rest).map (· + 1) else none
  | [] => none

/-! ### Numbers -/

/-- The length of what continues a run of digits: more digits, single underscores between them. -/
def digitsOn (isDigit : Char → Bool) : List Char → Nat
  | '_' :: d :: rest => if isDigit d then 2 + digitsOn isDigit rest else 0
  | c :: rest => if isDigit c then 1 + digitsOn isDigit rest else 0
  | [] => 0

/-- The length of a run of digits in which single underscores may stand between digits. -/
def digitRun (isDigit : Char → Bool) : List Char → Nat
  | c :: rest => if isDigit c then 1 + digitsOn isDigit rest else 0
  | [] => 0

/-- The length of an exponent at the front; zero when there is none. -/
def exponentLength : List Char → Nat
  | e :: rest =>
    if e == 'e' || e == 'E' then
      let sign := match rest with
        | '+' :: _ | '-' :: _ => 1
        | _ => 0
      let digits := digitRun Char.isDigit (rest.drop sign)
      if digits == 0 then 0 else 1 + sign + digits
    else 0
  | [] => 0

/-- The length of a number with a radix mark such as `0x`, with an `n` at the end or without. -/
def radixLength (isDigit : Char → Bool) (rest : List Char) : Option Nat :=
  let digits := digitRun isDigit rest
  if digits == 0 then none
  else some (2 + digits + if (rest.drop digits).head? == some 'n' then 1 else 0)

/-- A whole part that may be followed by a fraction or an exponent: a lone zero, or digits of which
at most the first is a zero. -/
def isWholePart : List Char → Bool
  | ['0'] => true
  | '0' :: c :: _ => c != '0' && c.isDigit
  | c :: _ => c.isDigit
  | [] => false

/-- The length of the decimal number at the front. -/
def decimalLength (source : List Char) : Option Nat :=
  let whole := digitRun Char.isDigit source
  let rest := source.drop whole
  if whole == 0 then
    match rest with
    | '.' :: more =>
      let digits := digitRun Char.isDigit more
      if digits == 0 then none
      else some (1 + digits + exponentLength (more.drop digits))
    | _ => none
  else
    match rest with
    | 'n' :: _ => some (whole + 1)
    | '.' :: more =>
      if isWholePart (source.take whole) then
        let digits := digitRun Char.isDigit more
        some (whole + 1 + digits + exponentLength (more.drop digits))
      else some whole
    | _ => some (whole + if isWholePart (source.take whole) then exponentLength rest else 0)

/-- The length of the number at the front. -/
def numberLength : List Char → Option Nat
  | '0' :: mark :: rest =>
    let radix :=
      if mark == 'x' || mark == 'X' then radixLength isHexDigit rest
      else if mark == 'b' || mark == 'B' then radixLength (fun c => c == '0' || c == '1') rest
      else if mark == 'o' || mark == 'O' then radixLength isOctalDigit rest
      else none
    radix <|> decimalLength ('0' :: mark :: rest)
  | source => decimalLength source

/-! ### Regular expressions -/

/-- The length of the rest of a regular expression, its closing slash included. `inClass` says that
a bracket is open, where a slash stands for itself. -/
def regexRest (inClass escaped : Bool) : List Char → Option Nat
  | [] => none
  | c :: rest =>
    if c == '\n' then none
    else if escaped then (regexRest inClass false rest).map (· + 1)
    else if c == '\\' then (regexRest inClass true rest).map (· + 1)
    else if inClass then (regexRest (c != ']') false rest).map (· + 1)
    else if c == '/' then some 1
    else (regexRest (c == '[') false rest).map (· + 1)

/-- The length of the regular expression at the front, flags included. -/
def regexLength : List Char → Option Nat
  | '/' :: rest => do
    let body ← regexRest false false rest
    if body ≤ 1 then none
    else
      let flags := ((rest.drop body).takeWhile fun c => 'a' ≤ c && c ≤ 'z').length
      some (1 + body + flags)
  | _ => none

/-! ### Template chunks -/

/-- The length of the raw text up to the next substitution or the end of a template; nothing when
the template is never closed or holds a malformed escape. -/
def chunkLength (skip : Nat) : List Char → Option Nat
  | [] => none
  | c :: rest =>
    match skip with
    | skip + 1 => (chunkLength skip rest).map (· + 1)
    | 0 =>
      if c == '\x60' then some 0
      else if c == '$' && rest.head? == some '\x7b' then some 0
      else if c == '\\' then do
        let width ← escapeLength rest
        (chunkLength width rest).map (· + 1)
      else (chunkLength 0 rest).map (· + 1)

/-! ### Parsers -/

/-- A literal of `kind` whose length is recognised by `measure`. -/
def literal (kind : Kind) (measure : List Char → Option Nat) : Parse Item := do
  let source ← ahead
  match measure source with
  | some width => take kind width
  | none => failure

def stringLiteral : Parse Item := literal .string stringLength

def numberLiteral : Parse Item := literal .number numberLength

def regexLiteral : Parse Item := literal .regex regexLength

/-- A chunk of template text. It starts directly at the cursor's tail: blanks belong to it. An empty
chunk contributes nothing. -/
def templateChunk : Parse (List Item) := fun cursor =>
  match chunkLength 0 cursor.tail with
  | none => none
  | some width =>
    let raw : Cursor := { cursor with lead := {}, rest := cursor.tail, left := cursor.left }
    if width == 0 then some ([], raw)
    else
      let text := String.ofList (cursor.tail.take width)
      some ([{ lead := {}, node := .leaf {} .stringFragment text }],
        { tail := cursor.tail.drop width, lead := {}, rest := cursor.tail.drop width,
          left := cursor.left - width })

/-- The text from the opening backquote to the closing one: chunks, with `substitution` for what
stands between `$` and braces. -/
def templateOf (kind : Kind) (substitution : Parse Item) : Parse Item := do
  let opening ← mark "`"
  let first ← templateChunk
  let rest ← Parse.many do
    let inner ← substitution
    let chunk ← templateChunk
    pure (inner :: chunk)
  let closing ← mark "`"
  pure (.branch kind (opening :: first ++ rest.flatten ++ [closing]))

/-- A substitution in a template: what `p` reads between `$` and braces. -/
def substitutionOf (kind : Kind) (p : Parse Item) : Parse Item := do
  let opening ← mark "$\x7b"
  let inner ← p
  let closing ← mark "\x7d"
  pure (.branch kind [opening, inner, closing])

end RouteBinder.Grammar
