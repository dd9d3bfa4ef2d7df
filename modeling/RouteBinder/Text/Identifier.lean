import RouteBinder.Text.Chars

/-!
# RouteBinder.Text.Identifier

**Identifiers in texts.** Two questions are asked of emitted text: whether a word needs no quotes
(`isIdentifier`), and whether a name occurs in a text as a whole identifier (`mentions`), that is,
with no identifier character on either side.
-/

namespace RouteBinder.Text

/-- The text without a line feed at its very end. -/
def dropFinalLineFeed (text : List Char) : List Char :=
  if text.getLast? == some '\n' then text.dropLast else text

/-- A word that can be used as an object key without quotes. A line feed at the very end does not
count. -/
def isIdentifier (text : String) : Bool :=
  match dropFinalLineFeed text.toList with
  | [] => false
  | first :: rest => isIdentifierStart first && rest.all isIdentifierChar

/-- Does `name` occur in the text, with no identifier character in front of it and with `follows`
true of what comes after it? `joined` says whether an identifier character stands in front of the
text. -/
def occurs (name : List Char) (follows : List Char → Bool) (joined : Bool) (text : List Char) :
    Bool :=
  (!joined && name.isPrefixOf text && follows (text.drop name.length)) ||
    match text with
    | [] => false
    | c :: rest => occurs name follows (isIdentifierChar c) rest

/-- The text does not continue an identifier. -/
def startsOutside : List Char → Bool
  | [] => true
  | c :: _ => !isIdentifierChar c

/-- Does `name` occur in the text as a whole identifier? -/
def mentions (text name : String) : Bool := occurs name.toList startsOutside false text.toList

/-- Does `name` occur in the text with a dot behind it? -/
def mentionsMember (text name : String) : Bool :=
  occurs name.toList (·.head? == some '.') false text.toList

end RouteBinder.Text
