import RouteBinder.Source.Node
import RouteBinder.Grammar.Blank

/-!
# RouteBinder.Grammar.Cursor

**Reading tokens and building nodes.** A `Cursor` stands between two tokens: it keeps the lead of
the next token apart from the token itself, so every decision of the grammar looks at the first
characters of a token. A parser (`Parse`) turns a cursor into a result and a later cursor, or
refuses; refusing leaves nothing behind, so alternatives can be tried in order.

A parser for a construct returns an `Item`: the node together with the lead in front of it. When
items are gathered under a parent (`Item.branch`), the first item's lead becomes the parent's lead
and all other leads are written into the children as gaps and comment nodes. So a comment ends up
in the innermost construct that holds a token before it and a token after it.
-/

namespace RouteBinder.Grammar

open RouteBinder.Source

/-! ### Cursors -/

/-- A place between two tokens. -/
structure Cursor where
  /-- What follows the last token directly, blanks included. -/
  tail : List Char
  /-- The lead of the next token. -/
  lead : Lead
  /-- The source from the next token on. -/
  rest : List Char
  /-- An upper bound on the characters left, lowered by each token. -/
  left : Nat

/-- The cursor in front of the first token of `source`. -/
def Cursor.start (source : List Char) : Cursor :=
  let (lead, rest) := Lead.split source
  { tail := source, lead, rest, left := source.length + 1 }

/-- The cursor after a token of `width` characters that leaves `tail`. -/
def Cursor.past (cursor : Cursor) (width : Nat) (tail : List Char) : Cursor :=
  let (lead, rest) := Lead.split tail
  { tail, lead, rest, left := cursor.left - (width + cursor.lead.length) }

/-- Parsers: a result and a later cursor, or nothing. -/
abbrev Parse := StateT Cursor Option

namespace Parse

/-- Succeeds only under a condition. -/
def require (condition : Bool) : Parse Unit := if condition then pure () else failure

/-- The result of `p`, or nothing when `p` refuses. -/
def optional {α : Type} (p : Parse α) : Parse (Option α) := (some <$> p) <|> pure none

/-- Does `p` succeed here? Nothing is consumed. -/
def sees {α : Type} (p : Parse α) : Parse Bool := fun cursor => some ((p cursor).isSome, cursor)

/-- Repeats `p` while it succeeds and reads something. -/
def many {α : Type} (p : Parse α) (cursor : Cursor) : Option (List α × Cursor) :=
  match p cursor with
  | none => some ([], cursor)
  | some (first, next) =>
    if next.left < cursor.left then
      (many p next).map fun (rest, last) => (first :: rest, last)
    else some ([], cursor)
termination_by cursor.left

/-- Extends `start` by `grow` while that succeeds and reads something. -/
def chain {α : Type} (grow : α → Parse α) (start : α) (cursor : Cursor) : Option (α × Cursor) :=
  match grow start cursor with
  | none => some (start, cursor)
  | some (grown, next) =>
    if next.left < cursor.left then chain grow grown next else some (start, cursor)
termination_by cursor.left

end Parse

/-! ### Items -/

/-- A node with the lead in front of it. -/
structure Item where
  lead : Lead
  role : Option Role := none
  node : Node

namespace Item

/-- The item in a given role. -/
def as (item : Item) (role : Role) : Item := { item with role := some role }

/-- The nodes an item contributes to its parent when it is not the first part: the comments of its
lead, then the node. -/
def parts (item : Item) : List Node :=
  item.lead.comments.map (fun (gap, comment) => .leaf { gap } .comment comment) ++
    [item.node.placedAt { gap := item.lead.gap, role := item.role }]

/-- A node of `kind` made of items. -/
def branch (kind : Kind) : List Item → Item
  | [] => { lead := {}, node := .branch {} kind [] }
  | first :: rest =>
    { lead := first.lead
      node := .branch {} kind (first.node.placedAt { role := first.role } :: rest.flatMap parts) }

/-- Is the item's node of one of the kinds? -/
def isOf (item : Item) (kinds : List Kind) : Bool := kinds.contains item.node.kind

/-- The same node under another kind. -/
def retag (item : Item) (kind : Kind) : Item :=
  { item with node := match item.node with
      | .leaf place _ text => .leaf place kind text
      | .branch place _ children => .branch place kind children }

end Item

/-! ### Tokens -/

/-- Takes the next `width` characters as a leaf of `kind`. -/
def take (kind : Kind) (width : Nat) : Parse Item := fun cursor =>
  let text := String.ofList (cursor.rest.take width)
  some ({ lead := cursor.lead, node := .leaf {} kind text },
    cursor.past width (cursor.rest.drop width))

/-- The source from the next token on. -/
def ahead : Parse (List Char) := fun cursor => some (cursor.rest, cursor)

/-- The name at the start of `source`; empty when it starts with none. -/
def nameAt : List Char → List Char
  | [] => []
  | c :: rest => if isNameStart c then c :: rest.takeWhile isNameChar else []

/-- The next token when it is a name, keywords included; empty otherwise. -/
def nextName : Parse String := fun cursor => some (String.ofList (nameAt cursor.rest), cursor)

/-- The punctuation mark `mark`, whatever follows it. -/
def mark (mark : String) : Parse Item := do
  let source ← ahead
  Parse.require (mark.toList.isPrefixOf source)
  take .symbol mark.length

/-- The keyword `word`. -/
def keyword (word : String) : Parse Item := do
  let name ← nextName
  Parse.require (name == word)
  take .symbol word.length

/-- One of the keywords. -/
def keywordOf (words : List String) : Parse Item := do
  let name ← nextName
  Parse.require (words.contains name)
  take .symbol name.length

/-- Any name, as a leaf of `kind`. -/
def name (kind : Kind) : Parse Item := do
  let name ← nextName
  Parse.require (name != "")
  take kind name.length

/-- Does the source go on with `mark`? -/
def seesMark (mark : String) : Parse Bool := do
  let source ← ahead
  pure (mark.toList.isPrefixOf source)

/-- Is the next token the keyword `word`? -/
def seesWord (word : String) : Parse Bool := do
  let name ← nextName
  pure (name == word)

/-! ### Ends of statements -/

/-- What a line break means where a construct stands. -/
inductive Boundary where
  /-- Nothing: the construct is enclosed in brackets. -/
  | enclosed
  /-- It may end the construct, after which no operator could follow. -/
  | type
  /-- It may end the construct, after which an operator could follow. -/
  | expression
  deriving DecidableEq, Repr

/-- May the construct end right after the last token without a semicolon? -/
def endsHere (boundary : Boundary) : Parse Bool := fun cursor =>
  some (match boundary with
    | .enclosed => false
    | .type => lineEnds false cursor.tail
    | .expression => lineEnds true cursor.tail, cursor)

/-- The construct goes on. -/
def goesOn (boundary : Boundary) : Parse Unit := do
  Parse.require (!(← endsHere boundary))

/-- The end of a statement: a semicolon, or a place where none is needed. -/
def semicolon (boundary : Boundary) : Parse (List Item) := do
  if ← endsHere boundary then pure []
  else return [← mark ";"]

/-- `p` separated by commas, at least once; the commas are kept. -/
def commaSeparated (p : Parse Item) : Parse (List Item) := do
  let first ← p
  let rest ← Parse.many do
    let comma ← mark ","
    let next ← p
    pure [comma, next]
  pure (first :: rest.flatten)

/-- Items between brackets, separated by commas; any of them may be missing, as in `[, a,]`. -/
def sparseList (opening closing : String) (p : Parse Item) : Parse (List Item) := do
  let first ← mark opening
  let parts ← Parse.many (mark "," <|> p)
  Parse.require (alternates (parts.map (·.node.isSymbol ",")))
  let last ← mark closing
  pure (first :: parts ++ [last])
where
  /-- No two items stand side by side without a comma. -/
  alternates : List Bool → Bool
    | false :: false :: _ => false
    | _ :: rest => alternates rest
    | [] => true

/-- Items between brackets, separated by single commas, with an optional last comma. -/
def denseList (opening closing : String) (p : Parse Item) : Parse (List Item) := do
  let first ← mark opening
  let parts ← Parse.optional (commaSeparated p)
  let comma ← if parts.isSome then Parse.optional (mark ",") else pure none
  let last ← mark closing
  pure (first :: parts.getD [] ++ comma.toList ++ [last])

end RouteBinder.Grammar
