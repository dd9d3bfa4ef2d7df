import RouteBinder.Text.WordTable
import RouteBinder.Text.UpperTable

/-!
# RouteBinder.Text.Chars

**Character classes of the emitted text.** Blanks, word characters and upper case follow Unicode,
because directory names and identifiers may be written in any script. Lower case is needed only to
recognise a handful of ASCII words, to which no other character lowers, so it is ASCII's.
-/

namespace RouteBinder.Text

/-- Blank characters: separators of words, lines and paragraphs. -/
def isBlank (c : Char) : Bool :=
  let n := c.toNat
  (9 ≤ n && n ≤ 13) || (0x1C ≤ n && n ≤ 0x20) || n == 0x85 || n == 0xA0 || n == 0x1680 ||
  (0x2000 ≤ n && n ≤ 0x200A) || n == 0x2028 || n == 0x2029 || n == 0x202F || n == 0x205F ||
  n == 0x3000

/-- Characters that end a line of a message. -/
def endsLine (c : Char) : Bool :=
  let n := c.toNat
  (10 ≤ n && n ≤ 13) || (0x1C ≤ n && n ≤ 0x1E) || n == 0x85 || n == 0x2028 || n == 0x2029

/-- Does the text have a null character? Operating systems take it for the end of a text. -/
def hasNull (text : String) : Bool := text.toList.contains '\x00'

/-- Letters, numerals and connectors of any script. -/
def isWordChar (c : Char) : Bool :=
  if c.toNat < 128 then c.isAlphanum || c == '_'
  else wordRanges.any fun (first, last) => first ≤ c.toNat && c.toNat ≤ last

/-- Characters that continue an identifier in emitted code. -/
def isIdentifierChar (c : Char) : Bool := isWordChar c || c == '$'

/-- Characters that start an identifier which needs no quotes. Only ASCII letters are accepted
here, so other names are quoted. -/
def isIdentifierStart (c : Char) : Bool := c.isAlpha || c == '_' || c == '$'

/-- The upper case of a character, which may be several characters. -/
def upperChar (c : Char) : List Char :=
  if c.toNat < 128 then [c.toUpper]
  else
    match upperStrings.lookup c.toNat with
    | some codes => codes.map Char.ofNat
    | none =>
      match upperRuns.find? (fun (first, last, step, _) =>
        first ≤ c.toNat && c.toNat ≤ last && (c.toNat - first) % step == 0) with
      | some (first, _, _, image) => [Char.ofNat (image + (c.toNat - first))]
      | none => [c]

/-- The upper case of a text. -/
def upper (text : String) : String := String.ofList (text.toList.flatMap upperChar)

/-- The lower case of the ASCII letters of a text. -/
def lowerAscii (text : String) : String := String.ofList (text.toList.map Char.toLower)

end RouteBinder.Text
