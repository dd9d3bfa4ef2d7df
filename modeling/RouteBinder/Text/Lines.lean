import RouteBinder.Text.Chars

/-!
# RouteBinder.Text.Lines

**Texts as lists of lines.** Retained bodies are moved out of one surrounding and into another, so
their margins are removed (`dedent`), added (`indent`) and cleaned up (`tidy`).

All functions work on lists of characters, with `String` versions for callers.
-/

namespace RouteBinder.Text

/-! ### Splitting and trimming -/

/-- The pieces between occurrences of `mark`; a text without `mark` is a single piece. -/
def splitOn (mark : Char) : List Char → List (List Char)
  | [] => [[]]
  | c :: rest =>
    if c == mark then [] :: splitOn mark rest
    else
      match splitOn mark rest with
      | [] => [[c]]
      | piece :: pieces => (c :: piece) :: pieces

/-- The pieces with `mark` between them. -/
def joinWith (mark : Char) : List (List Char) → List Char
  | [] => []
  | [piece] => piece
  | piece :: pieces => piece ++ mark :: joinWith mark pieces

def lines (text : List Char) : List (List Char) := splitOn '\n' text

def unlines (lines : List (List Char)) : List Char := joinWith '\n' lines

/-- The text with every line end, whether one of two characters or one, as a line feed. -/
def unifyLineEnds : List Char → List Char
  | '\r' :: '\n' :: rest => '\n' :: unifyLineEnds rest
  | '\r' :: rest => '\n' :: unifyLineEnds rest
  | c :: rest => c :: unifyLineEnds rest
  | [] => []

/-- Drops characters that satisfy `p` from the end. -/
def dropEndWhile (p : Char → Bool) (text : List Char) : List Char :=
  (text.reverse.dropWhile p).reverse

/-- Drops characters that satisfy `p` from both ends. -/
def trimWhile (p : Char → Bool) (text : List Char) : List Char :=
  dropEndWhile p (text.dropWhile p)

/-- The text without blanks at its ends. -/
def trim (text : String) : String := String.ofList (trimWhile isBlank text.toList)

/-- The text without quotes of either kind at its ends. -/
def trimQuotes (text : String) : String :=
  String.ofList (trimWhile (fun c => c == '\x27' || c == '\x22') text.toList)

/-- The text without its first and last character. -/
def inside (text : String) : String := String.ofList (text.toList.drop 1).dropLast

/-- A line of blanks only. -/
def isBlankLine (line : List Char) : Bool := line.all isBlank

/-! ### Margins -/

/-- A space or a tab: the characters margins are made of. -/
def isMarginChar (c : Char) : Bool := c == ' ' || c == '\t'

/-- Replaces the tabs of a line's leading blanks by spaces, up to the next column divisible by
four. -/
def expandMargin (column : Nat) : List Char → List Char
  | '\t' :: rest =>
    let width := 4 - column % 4
    List.replicate width ' ' ++ expandMargin (column + width) rest
  | ' ' :: rest => ' ' :: expandMargin (column + 1) rest
  | rest => rest

/-- The longest common beginning of two lists. -/
def commonStart : List Char → List Char → List Char
  | a :: as, b :: bs => if a == b then a :: commonStart as bs else []
  | _, _ => []

/-- The margin that all lines share, lines without text left aside. -/
def sharedMargin (lines : List (List Char)) : List Char :=
  match (lines.filter (!·.all isMarginChar)).map (·.takeWhile isMarginChar) with
  | [] => []
  | first :: rest => rest.foldl commonStart first

/-- Removes the shared margin. Lines of spaces and tabs become empty. -/
def dedent (text : List Char) : List Char :=
  let cleared := (lines text).map fun line => if line.all isMarginChar then [] else line
  let margin := sharedMargin cleared
  unlines (cleared.map fun line => if margin.isPrefixOf line then line.drop margin.length else line)

/-- One step of indentation. -/
def indentStep : String := "  "

/-- Puts `level` steps in front of every line that is not blank; blank lines become empty. -/
def indent (text : String) (level : Nat) : String :=
  let margin := (List.replicate level indentStep.toList).flatten
  String.ofList (unlines ((lines text.toList).map fun line =>
    if isBlankLine line then [] else margin ++ line))

/-! ### Cleaning up -/

/-- Drops every blank line that follows a blank line. -/
def squeeze (previousBlank : Bool) : List (List Char) → List (List Char)
  | [] => []
  | line :: rest =>
    if isBlankLine line && previousBlank then squeeze true rest
    else line :: squeeze (isBlankLine line) rest

/-- Removes blanks at the ends of lines and of the text, and keeps one of consecutive blank
lines. -/
def tidy (text : String) : String :=
  let body := trimWhile (· == '\n') text.toList
  let kept := (squeeze false (lines body)).map (dropEndWhile isBlank)
  String.ofList (trimWhile isBlank (unlines kept))

/-- The content of a block: its margin removed, tabs in margins expanded. -/
def blockContent (text : String) : String :=
  let body := trimWhile (· == '\n') text.toList
  let expanded := (lines body).map (expandMargin 0)
  String.ofList (trimWhile isBlank (dedent (unlines expanded)))

end RouteBinder.Text
