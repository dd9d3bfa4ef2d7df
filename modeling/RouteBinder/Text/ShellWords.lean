import RouteBinder.Text.Chars

/-!
# RouteBinder.Text.ShellWords

**Command lines as lists of words.** Words are separated by blanks. A backslash takes the next
character as it is; single quotes take everything up to the next single quote; double quotes take
everything up to the next double quote, except that a backslash in front of a backslash or a double
quote is dropped. A number sign has no meaning of its own.
-/

namespace RouteBinder.Text.ShellWords

/-- Why a command line has no words. -/
inductive Error where
  | unclosedQuote
  | danglingBackslash
  deriving DecidableEq, Repr

def Error.message : Error → String
  | .unclosedQuote => "No closing quotation"
  | .danglingBackslash => "No escaped character"

/-- What the next character means. -/
inductive Mode where
  /-- Not quoted. -/
  | bare
  /-- Between two quotation marks. -/
  | quoted (mark : Char)
  /-- Behind a backslash outside quotes. -/
  | escaped
  /-- Behind a backslash between double quotes. -/
  | escapedInQuotes
  deriving DecidableEq, Repr

def isSeparator (c : Char) : Bool := c == ' ' || c == '\t' || c == '\r' || c == '\n'

/-- Adds a character to a word, which begins if there is none. -/
def extend (word : Option (List Char)) (c : Char) : Option (List Char) :=
  some (word.getD [] ++ [c])

/-- The words of the characters, where `word` is the one that has begun. -/
def scan : Mode → Option (List Char) → List Char → Except Error (List (List Char))
  | .bare, word, [] => .ok word.toList
  | .quoted _, _, [] => .error .unclosedQuote
  | .escaped, _, [] => .error .danglingBackslash
  | .escapedInQuotes, _, [] => .error .danglingBackslash
  | .bare, word, c :: rest =>
    if isSeparator c then (scan .bare none rest).map (word.toList ++ ·)
    else if c == '\\' then scan .escaped word rest
    else if c == '\x27' || c == '\x22' then scan (.quoted c) (some (word.getD [])) rest
    else scan .bare (extend word c) rest
  | .quoted mark, word, c :: rest =>
    if c == mark then scan .bare word rest
    else if c == '\\' && mark == '\x22' then scan .escapedInQuotes word rest
    else scan (.quoted mark) (extend word c) rest
  | .escaped, word, c :: rest => scan .bare (extend word c) rest
  | .escapedInQuotes, word, c :: rest =>
    let kept := if c == '\\' || c == '\x22' then word else extend word '\\'
    scan (.quoted '\x22') (extend kept c) rest

/-- The words of a command line. -/
def split (line : String) : Except Error (List String) :=
  (scan .bare none line.toList).map (·.map String.ofList)

end RouteBinder.Text.ShellWords
