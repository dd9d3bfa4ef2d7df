import RouteBinder.Grammar.Literal

/-!
# RouteBinder.Grammar.Pattern

**Property names, patterns and parameters.** The grammar is recursive in a few places only: a type
may stand in a type, an expression in an expression, a statement in a statement. `Inner` bundles
the parsers for these nested constructs; every rule of the grammar takes it as an argument, and the
knot is tied once (`RouteBinder.Grammar.Tree`).
-/

namespace RouteBinder.Grammar

open RouteBinder.Source

/-- The parsers for constructs nested in the one that is being read. -/
structure Inner where
  /-- A type. -/
  type : Boundary → Parse Item
  /-- An expression without a top-level comma. -/
  expression : Boundary → Parse Item
  /-- Operands joined by operators of at least the given level. -/
  operation : Nat → Boundary → Parse Item
  /-- An operand with its prefix operators. -/
  operand : Boundary → Parse Item
  /-- What can stand on the left of an assignment or inside a pattern. -/
  target : Parse Item
  /-- A statement. -/
  statement : Parse Item

namespace Inner

/-- The innermost level, where nothing can be read any more. -/
def exhausted : Inner where
  type _ := failure
  expression _ := failure
  operation _ _ := failure
  operand _ := failure
  target := failure
  statement := failure

end Inner

/-! ### Names of members -/

/-- A private name such as `#count`. -/
def privateName : Parse Item := do
  let source ← ahead
  Parse.require (source.head? == some '#' && !(nameAt (source.drop 1)).isEmpty)
  take .privatePropertyIdentifier (1 + (nameAt (source.drop 1)).length)

/-- The name of a member of an object, a class or an object type. -/
def propertyName (inner : Inner) : Parse Item :=
  name .propertyIdentifier <|> privateName <|> stringLiteral <|> numberLiteral <|> do
    let opening ← mark "["
    let key ← inner.expression .enclosed
    let closing ← mark "]"
    pure (.branch .computedPropertyName [opening, key, closing])

/-- Does a member name, or what can replace it, start here? A word in front of it is a modifier. -/
def seesMember (openings : String) : Parse Bool := do
  let source ← ahead
  pure (match source with
    | c :: _ => isNameStart c || c.isDigit || openings.toList.contains c
    | [] => false)

/-- One of the words, provided that a member name follows. -/
def modifier (openings : String) (words : List String) (kind : Kind) : Parse Item := do
  let word ← keywordOf words
  Parse.require (← seesMember openings)
  pure (word.retag kind)

def accessibilityWords : List String := ["public", "private", "protected"]

/-! ### Patterns -/

/-- `...` in front of a target. -/
def restPattern (inner : Inner) : Parse Item := do
  let dots ← mark "..."
  let rest ← inner.target
  pure (.branch .restPattern [dots, rest])

/-- `= value` after a target, with the default value. -/
def withDefault (inner : Inner) (kind : Kind) (target : Item) : Parse Item := do
  let equals ← mark "="
  let value ← inner.expression .enclosed
  pure (.branch kind [target.as .left, equals, value.as .right])

/-- A target, possibly with a default value. -/
def element (inner : Inner) : Parse Item := do
  let target ← inner.target
  withDefault inner .assignmentPattern target <|> pure target

/-- A part of an object pattern. -/
def objectPatternPart (inner : Inner) : Parse Item :=
  restPattern inner <|>
  (do
    let key ← propertyName inner
    let colon ← mark ":"
    let value ← element inner
    pure (.branch .pairPattern [key.as .key, colon, value.as .value])) <|>
  (do
    let short ← name .shorthandPropertyIdentifierPattern
    withDefault inner .objectAssignmentPattern short <|> pure short)

def objectPattern (inner : Inner) : Parse Item := do
  pure (.branch .objectPattern (← sparseList "\x7b" "\x7d" (objectPatternPart inner)))

def arrayPattern (inner : Inner) : Parse Item := do
  pure (.branch .arrayPattern (← sparseList "[" "]" (restPattern inner <|> element inner)))

/-- An object or array pattern. -/
def destructuring (inner : Inner) : Parse Item := objectPattern inner <|> arrayPattern inner

/-- What a declaration binds: a name or a pattern. -/
def bindingTarget (inner : Inner) : Parse Item := name .identifier <|> destructuring inner

/-! ### Type annotations and parameters -/

/-- `: T`. -/
def typeClause (inner : Inner) (boundary : Boundary) : Parse Item := do
  let colon ← mark ":"
  let type ← inner.type boundary
  pure (.branch .typeClause [colon, type])

/-- `= value`, as the parts of the enclosing construct. -/
def initializer (inner : Inner) (boundary : Boundary) : Parse (List Item) := do
  Parse.require (!(← seesMark "=>") && !(← seesMark "=="))
  let equals ← mark "="
  let value ← inner.expression boundary
  pure [equals, value.as .value]

/-- `@name`, `@name.member`, `@name(...)` or `@(...)`. -/
def decorator (inner : Inner) : Parse Item := do
  let sign ← mark "@"
  let value ← inner.operand .enclosed
  pure ((Item.branch .decorator [sign, value]).as .decorator)

def decorators (inner : Inner) : Parse (List Item) := Parse.many (decorator inner)

/-- What a parameter binds. -/
def parameterPattern (inner : Inner) : Parse Item :=
  (do
    let dots ← mark "..."
    let rest ← bindingTarget inner
    pure (.branch .restPattern [dots, rest])) <|>
  (do return (← keyword "this").retag .this) <|>
  bindingTarget inner

/-- A parameter of a function, a method or a function type. -/
def parameter (inner : Inner) : Parse Item := do
  let decorators ← decorators inner
  let access ← Parse.optional (modifier "\x7b[." accessibilityWords .accessibilityModifier)
  let override ← Parse.optional (modifier "\x7b[." ["override"] .overrideModifier)
  let readonly ← Parse.optional (modifier "\x7b[." ["readonly"] .symbol)
  let pattern ← parameterPattern inner
  let question ← Parse.optional (mark "?")
  let type ← Parse.optional (typeClause inner .enclosed)
  let value ← Parse.optional (initializer inner .enclosed)
  let kind := if question.isSome then Kind.optionalParameter else .requiredParameter
  pure (.branch kind (decorators ++ access.toList ++ override.toList ++ readonly.toList ++
    [pattern.as .pattern] ++ question.toList ++ (type.map (·.as .type)).toList ++ value.getD []))

/-- The parameters between parentheses. -/
def formalParameters (inner : Inner) : Parse Item := do
  pure (.branch .formalParameters (← denseList "(" ")" (parameter inner)))

end RouteBinder.Grammar
