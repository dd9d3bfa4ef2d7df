import RouteBinder.Text.Identifier

/-!
# RouteBinder.Text.Quoted

**String literals and object keys in emitted code.** A literal is written between single quotes;
the quote, the backslash and the line feed are escaped, and every other character stands for itself.
-/

namespace RouteBinder.Text.Quoted

/-- The spelling of a character inside a literal. -/
def encodeChar (c : Char) : List Char :=
  if c == '\\' then ['\\', '\\']
  else if c == '\x27' then ['\\', '\x27']
  else if c == '\n' then ['\\', 'n']
  else [c]

/-- A literal for the text. -/
def encode (text : List Char) : List Char :=
  '\x27' :: (text.flatMap encodeChar ++ ['\x27'])

/-- A single-quoted literal for the text. -/
def literal (text : String) : String := String.ofList (encode text.toList)

/-- The key of an accessor: the upper case of the name, quoted unless it is an identifier. -/
def propertyKey (name : String) : String :=
  let key := upper name
  if isIdentifier key then key else literal key

end RouteBinder.Text.Quoted
