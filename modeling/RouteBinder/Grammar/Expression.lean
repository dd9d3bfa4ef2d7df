import RouteBinder.Grammar.Function

/-!
# RouteBinder.Grammar.Expression

**Expressions.** An expression is built in layers: primary expressions, the accesses and calls that
follow them, prefix operators, infix operators by level, the conditional operator, and assignments.

Levels of infix operators run from `??` (loosest) to `**` (tightest). A cast (`as`, `satisfies`)
takes everything to its left that infix operators have already joined, so it is looser than all of
them, except behind `await`, which takes a cast operand whole.
-/

namespace RouteBinder.Grammar

open RouteBinder.Source

/-! ### Operators -/

/-- Infix operators with their levels; longer spellings first. -/
def infixLevels : List (String × Nat) :=
  [(">>>", 9), ("===", 7), ("!==", 7), ("**", 12), ("==", 7), ("!=", 7), ("<=", 8), (">=", 8),
    ("&&", 3), ("||", 2), ("??", 1), ("<<", 9), (">>", 9), ("+", 10), ("-", 10), ("*", 11),
    ("/", 11), ("%", 11), ("<", 8), (">", 8), ("&", 6), ("^", 5), ("|", 4)]

/-- The level of `**`, the only infix operator that nests to the right. -/
def powerLevel : Nat := 12

def assignmentOperators : List String :=
  [">>>=", "**=", "<<=", ">>=", "&&=", "||=", "??=", "+=", "-=", "*=", "/=", "%=", "^=", "&=", "|="]

/-- The first of the spellings that the source starts with. -/
def spellingAt (spellings : List String) : Parse String := do
  let source ← ahead
  match spellings.find? (·.toList.isPrefixOf source) with
  | some spelling => pure spelling
  | none => failure

/-- An infix operator of at least the given level, with its level. -/
def infixOperator (level : Nat) : Parse (Item × Nat) :=
  (do
    let word ← keyword "in" <|> keyword "instanceof"
    Parse.require (level ≤ 8)
    pure (word, 8)) <|>
  (do
    Parse.require !(← Parse.sees (spellingAt assignmentOperators))
    let spelling ← spellingAt (infixLevels.map Prod.fst)
    let found := (infixLevels.lookup spelling).getD 0
    Parse.require (level ≤ found)
    pure (← mark spelling, found))

/-! ### Literals of objects and arrays -/

/-- `...value`. -/
def spreadElement (inner : Inner) : Parse Item := do
  let dots ← mark "..."
  let value ← inner.expression .enclosed
  pure (.branch .spreadElement [dots, value])

/-- A method written in an object literal. -/
def objectMethod (inner : Inner) : Parse Item := do
  let modifiers ← classMemberModifiers
  let name ← propertyName inner
  let question ← Parse.optional (mark "?")
  let signature ← callSignatureParts inner .enclosed
  let body ← statementBlock inner
  pure (.branch .methodDefinition
    (modifiers ++ [name.as .name] ++ question.toList ++ signature ++ [body.as .body]))

def objectPart (inner : Inner) : Parse Item :=
  spreadElement inner <|> objectMethod inner <|>
  (do
    let key ← propertyName inner
    let colon ← mark ":"
    let value ← inner.expression .enclosed
    pure (.branch .pair [key.as .key, colon, value.as .value])) <|>
  name .shorthandPropertyIdentifier

def objectLiteral (inner : Inner) : Parse Item := do
  pure (.branch .object (← sparseList "\x7b" "\x7d" (objectPart inner)))

/-- Values between brackets or parentheses; any may be spread, and any may be missing. -/
def valueList (inner : Inner) (opening closing : String) : Parse (List Item) :=
  sparseList opening closing (spreadElement inner <|> inner.expression .enclosed)

def arguments (inner : Inner) : Parse Item := do
  pure (.branch .arguments (← valueList inner "(" ")"))

/-! ### Sequences and parentheses -/

/-- Expressions separated by commas. -/
def expressions (inner : Inner) (boundary : Boundary) : Parse Item := do
  match ← commaSeparated (inner.expression boundary) with
  | [single] => pure single
  | parts => pure (.branch .sequenceExpression parts)

def parenthesized (inner : Inner) : Parse Item := do
  let opening ← mark "("
  let value ← expressions inner .enclosed
  let type ← Parse.optional (typeClause inner .enclosed)
  let closing ← mark ")"
  pure (.branch .parenthesizedExpression
    ([opening, value] ++ (type.map (·.as .type)).toList ++ [closing]))

def templateLiteral (inner : Inner) : Parse Item :=
  templateOf .templateString (substitutionOf .templateSubstitution (expressions inner .enclosed))

/-! ### Primary expressions -/

/-- Words that never name a value where an expression starts. -/
def operatorWords : List String :=
  ["await", "class", "delete", "function", "import", "new", "super", "this", "typeof", "void",
    "yield", "true", "false", "null", "undefined"]

/-- A name used as a value. -/
def valueName : Parse Item := do
  let name ← nextName
  Parse.require (name != "" && !operatorWords.contains name)
  take .identifier name.length

/-- A keyword that is a value of its own. -/
def valueWord : Parse Item :=
  (do return (← keyword "this").retag .this) <|>
  (do return (← keyword "super").retag .super) <|>
  (do return (← keyword "true").retag .trueLiteral) <|>
  (do return (← keyword "false").retag .falseLiteral) <|>
  (do return (← keyword "null").retag .nullLiteral) <|>
  (do return (← keyword "undefined").retag .undefinedLiteral)

/-- `new.target` or `import.meta`. -/
def metaProperty : Parse Item :=
  (do
    let word ← keyword "new"
    let dot ← mark "."
    let property ← keyword "target"
    pure (.branch .metaProperty [word, dot, property])) <|>
  (do
    let word ← keyword "import"
    let dot ← mark "."
    let property ← keyword "meta"
    pure (.branch .metaProperty [word, dot, property]))

/-- `import` in front of the arguments of a dynamic import. -/
def importName : Parse Item := do
  let word ← keyword "import"
  Parse.require (← seesMark "(")
  pure (word.retag .importName)

/-- A primary expression that is no arrow function and no `new` expression. -/
def plainPrimary (inner : Inner) : Parse Item :=
  stringLiteral <|> numberLiteral <|> templateLiteral inner <|> regexLiteral <|>
  functionExpression inner <|> classExpression inner <|> metaProperty <|> valueWord <|>
  importName <|>
  (do return .branch .array (← valueList inner "[" "]")) <|>
  objectLiteral inner <|> parenthesized inner <|> valueName <|> privateName

/-! ### Accesses and calls -/

/-- `.name`, `?.name`, `[index]` or `?.[index]` after an expression. -/
def access (inner : Inner) (item : Item) : Parse Item :=
  (do
    let chained ← Parse.optional (optionalMark)
    let dot ← if chained.isSome then pure none else some <$> singleDot
    let property ← name .propertyIdentifier <|> privateName
    pure (.branch .memberExpression ([item.as .object] ++
      (chained.map (·.as .optionalChain)).toList ++ dot.toList ++ [property.as .property]))) <|>
  (do
    let chained ← Parse.optional optionalMark
    let opening ← mark "["
    let index ← expressions inner .enclosed
    let closing ← mark "]"
    pure (.branch .subscriptExpression ([item.as .object] ++
      (chained.map (·.as .optionalChain)).toList ++ [opening, index.as .index, closing])))
where
  optionalMark : Parse Item := do
    let source ← ahead
    Parse.require ("?.".toList.isPrefixOf source &&
      !(((source.drop 2).head?.map Char.isDigit).getD false))
    take .optionalChain 2
  singleDot : Parse Item := do
    Parse.require !(← seesMark "...")
    mark "."

/-- `!` after an expression: the value is taken to be present. -/
def nonNull (item : Item) : Parse Item := do
  Parse.require !(← seesMark "!=")
  let sign ← mark "!"
  pure (.branch .nonNullExpression [item, sign])

/-- Does the next token end an expression? -/
def seesEnd (boundary : Boundary) : Parse Bool := do
  let source ← ahead
  let marked := match source with
    | [] => true
    | c :: _ => ";)],:\x7d".toList.contains c
  pure (marked || (← endsHere boundary))

/-- A call, with type arguments or without, or a template behind its tag. -/
def call (inner : Inner) (boundary : Boundary) (item : Item) : Parse Item :=
  (do
    let chained ← Parse.optional (mark "?.")
    let types ← Parse.optional (typeArguments inner)
    let arguments ← arguments inner
    pure (.branch .callExpression ([item.as .function] ++ chained.toList ++
      (types.map (·.as .typeArguments)).toList ++ [arguments.as .arguments]))) <|>
  (do
    let template ← templateLiteral inner
    pure (.branch .callExpression [item.as .function, template.as .arguments])) <|>
  (do
    let types ← typeArguments inner
    Parse.require (← seesEnd boundary)
    pure (.branch .instantiationExpression [item, types.as .typeArguments]))

/-- `new Name(...)`. The constructor may be qualified, but not called. -/
def newExpression (inner : Inner) : Parse Item := do
  let word ← keyword "new"
  let first ← plainPrimary inner
  let constructor ← Parse.chain (fun item => access inner item <|> nonNull item) first
  let types ← Parse.optional (typeArguments inner)
  let arguments ← Parse.optional (arguments inner)
  pure (.branch .newExpression ([word, constructor.as .constructor] ++
    (types.map (·.as .typeArguments)).toList ++ (arguments.map (·.as .arguments)).toList))

/-- A primary expression followed by accesses and calls. -/
def postfixed (inner : Inner) (boundary : Boundary) : Parse Item := do
  let first ← arrowFunction inner boundary <|> metaProperty <|> newExpression inner <|>
    plainPrimary inner
  Parse.chain (fun item => do
    goesOn boundary
    access inner item <|> call inner boundary item <|> nonNull item) first

/-! ### Prefix and infix operators -/

/-- `as T`, `as const` or `satisfies T` after an expression. -/
def cast (inner : Inner) (boundary : Boundary) (item : Item) : Parse Item := do
  goesOn boundary
  (do
    let word ← keyword "as"
    let type ← (do
      let const ← keyword "const"
      pure const) <|> inner.type boundary
    pure (.branch .asExpression [item, word, type])) <|>
  (do
    let word ← keyword "satisfies"
    let type ← inner.type boundary
    pure (.branch .satisfiesExpression [item, word, type]))

/-- An operand with its prefix operators, or with `++` or `--` after it. -/
def operandRule (inner : Inner) (boundary : Boundary) : Parse Item :=
  (do
    let sign ← mark "++" <|> mark "--"
    let operand ← inner.operand boundary
    pure (.branch .updateExpression [sign.as .operator, operand.as .argument])) <|>
  (do
    let sign ← mark "!" <|> mark "~" <|> mark "-" <|> mark "+" <|>
      keywordOf ["typeof", "void", "delete"]
    let operand ← inner.operand boundary
    pure (.branch .unaryExpression [sign.as .operator, operand.as .argument])) <|>
  (do
    let word ← keyword "await"
    let operand ← inner.operand boundary
    let value ← Parse.chain (cast inner boundary) operand
    pure (.branch .awaitExpression [word, value])) <|>
  (do
    let value ← postfixed inner boundary
    (do
      goesOn boundary
      let sign ← mark "++" <|> mark "--"
      pure (.branch .updateExpression [value.as .argument, sign.as .operator])) <|> pure value) <|>
  (do
    let type ← typeArguments inner
    let operand ← inner.operand boundary
    pure (.branch .typeAssertion [type, operand]))

/-- Operands joined by infix operators of at least the given level. Casts join in at level zero. -/
def operationRule (inner : Inner) (level : Nat) (boundary : Boundary) : Parse Item := do
  let first ← inner.operand boundary
  Parse.chain (fun left =>
    (do
      goesOn boundary
      let (operator, found) ← infixOperator level
      let right ← inner.operation (if found == powerLevel then found else found + 1) boundary
      pure (.branch .binaryExpression [left.as .left, operator.as .operator, right.as .right])) <|>
    (do
      Parse.require (level == 0)
      cast inner boundary left)) first

/-! ### Conditionals and assignments -/

/-- The question mark of a conditional: neither `?.` nor `??`. -/
def questionMark : Parse Item := do
  let source ← ahead
  let next := source.drop 1
  Parse.require (next.head? != some '?' &&
    !(next.head? == some '.' && !(((next.drop 1).head?.map Char.isDigit).getD false)))
  mark "?"

/-- `a ? b : c`, or `condition` alone. -/
def conditional (inner : Inner) (boundary : Boundary) (condition : Item) : Parse Item :=
  (do
    goesOn boundary
    let question ← questionMark
    let consequence ← inner.expression .enclosed
    let colon ← mark ":"
    let alternative ← inner.expression boundary
    pure (.branch .ternaryExpression [condition.as .condition, question,
      consequence.as .consequence, colon, alternative.as .alternative])) <|> pure condition

/-- The equals sign of an assignment. -/
def equalsSign : Parse Item := do
  Parse.require (!(← seesMark "==") && !(← seesMark "=>"))
  mark "="

def assignableKinds : List Kind :=
  [.identifier, .undefinedLiteral, .memberExpression, .subscriptExpression,
    .parenthesizedExpression, .nonNullExpression]

/-- `= value` or `+= value` after something that can be assigned to. -/
def assignment (inner : Inner) (boundary : Boundary) (target : Item) : Parse Item := do
  Parse.require (target.isOf assignableKinds)
  goesOn boundary
  (do
    let equals ← equalsSign
    let value ← inner.expression boundary
    pure (.branch .assignmentExpression [target.as .left, equals, value.as .right])) <|>
  (do
    let operator ← mark (← spellingAt assignmentOperators)
    let value ← inner.expression boundary
    pure (.branch .augmentedAssignmentExpression
      [target.as .left, operator.as .operator, value.as .right]))

/-- An assignment to a pattern. -/
def patternAssignment (inner : Inner) (boundary : Boundary) : Parse Item := do
  let target ← destructuring inner
  let equals ← equalsSign
  let value ← inner.expression boundary
  pure (.branch .assignmentExpression [target.as .left, equals, value.as .right])

/-- `using name = value`, an assignment with a keyword in front. -/
def usingAssignment (inner : Inner) (boundary : Boundary) : Parse Item := do
  let word ← keyword "using"
  let target ← inner.target
  let equals ← equalsSign
  let value ← inner.expression boundary
  pure (.branch .assignmentExpression [word, target.as .left, equals, value.as .right])

/-- `yield`, with a star and a value where they stand. -/
def yieldExpression (inner : Inner) (boundary : Boundary) : Parse Item := do
  let word ← keyword "yield"
  let star ← Parse.optional (mark "*")
  let value ← if ← endsHere boundary then pure none
    else Parse.optional (inner.expression boundary)
  pure (.branch .yieldExpression ([word] ++ star.toList ++ value.toList))

/-- An expression without a top-level comma. -/
def expressionRule (inner : Inner) (boundary : Boundary) : Parse Item :=
  yieldExpression inner boundary <|> usingAssignment inner boundary <|>
  patternAssignment inner boundary <|>
  (do
    let first ← inner.operation 0 boundary
    assignment inner boundary first <|> conditional inner boundary first)

/-- A target of an assignment, which patterns are made of, too: a pattern, or a name with accesses
behind it. A target that starts with a bracket is never read as a literal, so trying a pattern
first costs no more than reading it. -/
def targetRule (inner : Inner) : Parse Item :=
  destructuring inner <|>
  (do
    let first ← valueName <|> (do return (← keyword "this").retag .this)
    Parse.chain (fun item => access inner item <|> nonNull item) first)

end RouteBinder.Grammar
