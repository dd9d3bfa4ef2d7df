import RouteBinder.Grammar.TypeRule

/-!
# RouteBinder.Grammar.Function

**Functions, methods and classes.** All of them hold a block of statements, and all of them but
arrow functions can be recognised from their first keyword or from a member name that is followed
by parameters.
-/

namespace RouteBinder.Grammar

open RouteBinder.Source

/-- Statements between braces. -/
def statementBlock (inner : Inner) : Parse Item := do
  let opening ← mark "\x7b"
  let statements ← Parse.many inner.statement
  let closing ← mark "\x7d"
  pure (.branch .statementBlock ([opening] ++ statements ++ [closing]))

/-! ### Functions -/

/-- `function`, with `async` in front and a star after it where they stand. -/
def functionHead : Parse (List Item × Bool) := do
  let async ← Parse.optional (keyword "async")
  let word ← keyword "function"
  let star ← Parse.optional (mark "*")
  pure (async.toList ++ [word] ++ star.toList, star.isSome)

/-- A function used as a value. -/
def functionExpression (inner : Inner) : Parse Item := do
  let (head, isGenerator) ← functionHead
  let name ← Parse.optional (name .identifier)
  let signature ← callSignatureParts inner .enclosed
  let body ← statementBlock inner
  let kind := if isGenerator then Kind.generatorFunction else .functionExpression
  pure (.branch kind (head ++ (name.map (·.as .name)).toList ++ signature ++ [body.as .body]))

/-- The body of an arrow function: a block or an expression. -/
def arrowBody (inner : Inner) (boundary : Boundary) : Parse Item := do
  if ← seesMark "\x7b" then statementBlock inner else inner.expression boundary

/-- `x => …`, `(x, y): T => …`, with `async` in front or without. -/
def arrowFunction (inner : Inner) (boundary : Boundary) : Parse Item :=
  attempt [] <|> do
    let async ← keyword "async"
    attempt [async]
where
  attempt (head : List Item) : Parse Item := do
    let parameters ←
      (do
        let single ← name .identifier
        pure [single.as .parameter]) <|> callSignatureParts inner .enclosed
    let arrow ← mark "=>"
    let body ← arrowBody inner boundary
    pure (.branch .arrowFunction (head ++ parameters ++ [arrow, body.as .body]))

/-- A declared function. Without a body it is an overload signature, which ends like a statement. -/
def functionDeclaration (inner : Inner) : Parse Item := do
  let (head, isGenerator) ← functionHead
  let name ← name .identifier
  let signature ← callSignatureParts inner .type
  let start := head ++ [name.as .name] ++ signature
  if ← seesMark "\x7b" then
    let body ← statementBlock inner
    let kind := if isGenerator then Kind.generatorFunctionDeclaration else .functionDeclaration
    pure (.branch kind (start ++ [body.as .body]))
  else
    Parse.require (!isGenerator)
    let ending ← semicolon .type
    pure (.branch .functionSignature (start ++ ending))

/-! ### Classes -/

/-- Words that can stand in front of the name of a class member. -/
def classModifiers : List String :=
  accessibilityWords ++ ["static", "override", "readonly", "declare", "abstract", "async", "get",
    "set", "accessor"]

/-- The kind of a modifier, by its text. -/
def modifierKind (word : Item) : Item :=
  match word.node with
  | .leaf _ _ text =>
    if accessibilityWords.contains text then word.retag .accessibilityModifier
    else if text == "override" then word.retag .overrideModifier
    else word
  | _ => word

def classMemberModifiers : Parse (List Item) := do
  let words ← Parse.many (modifier "\"'[#*" classModifiers .symbol)
  let star ← Parse.optional (mark "*")
  pure (words.map modifierKind ++ star.toList)

/-- A method with its body, or the signature of one. -/
def classMethod (inner : Inner) : Parse (List Item) := do
  let modifiers ← classMemberModifiers
  let name ← propertyName inner
  let question ← Parse.optional (mark "?")
  let signature ← callSignatureParts inner .type
  let start := modifiers ++ [name.as .name] ++ question.toList ++ signature
  if ← seesMark "\x7b" then
    let body ← statementBlock inner
    let ending ← Parse.optional (mark ";")
    pure ([.branch .methodDefinition (start ++ [body.as .body])] ++ ending.toList)
  else
    let ending ← (do return [← mark ","]) <|> semicolon .type
    let isAbstract := modifiers.any (·.node.isSymbol "abstract")
    let kind := if isAbstract then Kind.abstractMethodSignature else .methodSignature
    pure (.branch kind start :: ending)

/-- A field, with its type and its initial value where it has them. -/
def classField (inner : Inner) (decorators : List Item) : Parse (List Item) := do
  let modifiers ← classMemberModifiers
  let name ← propertyName inner
  let sign ← Parse.optional (mark "?" <|> mark "!")
  let type ← Parse.optional (typeClause inner .type)
  let value ← Parse.optional (initializer inner .expression)
  let boundary := if value.isSome then Boundary.expression else .type
  let ending ← (do return [← mark ","]) <|> semicolon boundary
  pure (.branch .publicFieldDefinition (decorators ++ modifiers ++ [name.as .name] ++
    sign.toList ++ (type.map (·.as .type)).toList ++ value.getD []) :: ending)

/-- A member of a class body, with the punctuation after it. -/
def classMember (inner : Inner) : Parse (List Item) :=
  (do return [← mark ";"]) <|>
  (do
    let word ← keyword "static"
    let body ← statementBlock inner
    pure [.branch .classStaticBlock [word, body.as .body]]) <|>
  (do
    let signature ← indexSignature inner .type
    let ending ← (do return [← mark ","]) <|> semicolon .type
    pure (signature :: ending)) <|>
  (do
    let decorators ← decorators inner
    (do return decorators ++ (← classMethod inner)) <|> classField inner decorators)

def classBody (inner : Inner) : Parse Item := do
  let opening ← mark "\x7b"
  let members ← Parse.many (classMember inner)
  let closing ← mark "\x7d"
  pure (.branch .classBody ([opening] ++ members.flatten ++ [closing]))

/-- `extends Base<T> implements A, B`. -/
def classHeritage (inner : Inner) : Parse Item := do
  let parent ← Parse.optional do
    let word ← keyword "extends"
    let value ← inner.operand .enclosed
    let arguments ← Parse.optional (typeArguments inner)
    pure (Item.branch .extendsClause ([word, value.as .value] ++
      (arguments.map (·.as .typeArguments)).toList))
  let interfaces ← Parse.optional do
    let word ← keyword "implements"
    let types ← commaSeparated (inner.type .enclosed)
    pure (Item.branch .implementsClause (word :: types))
  Parse.require (parent.isSome || interfaces.isSome)
  pure (.branch .classHeritage (parent.toList ++ interfaces.toList))

/-- What follows the keyword `class`: the name where there is one, type parameters, heritage and
body. -/
def classParts (inner : Inner) : Parse (List Item) := do
  let name ← Parse.optional do
    Parse.require (!(← seesWord "extends") && !(← seesWord "implements"))
    name .typeIdentifier
  let generics ← Parse.optional (typeParameters inner)
  let heritage ← Parse.optional (classHeritage inner)
  let body ← classBody inner
  pure ((name.map (·.as .name)).toList ++ (generics.map (·.as .typeParameters)).toList ++
    heritage.toList ++ [body.as .body])

/-- A class used as a value. -/
def classExpression (inner : Inner) : Parse Item := do
  let decorators ← decorators inner
  let word ← keyword "class"
  let parts ← classParts inner
  pure (.branch .classExpression (decorators ++ [word] ++ parts))

/-- A declared class. -/
def classDeclaration (inner : Inner) (decorators : List Item) : Parse Item := do
  let abstract ← Parse.optional (keyword "abstract")
  let word ← keyword "class"
  let parts ← classParts inner
  Parse.require (parts.head?.any (·.role == some .name))
  let kind := if abstract.isSome then Kind.abstractClassDeclaration else .classDeclaration
  pure (.branch kind (decorators ++ abstract.toList ++ [word] ++ parts))

end RouteBinder.Grammar
