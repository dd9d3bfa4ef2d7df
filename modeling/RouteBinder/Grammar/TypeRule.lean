import RouteBinder.Grammar.Pattern

/-!
# RouteBinder.Grammar.TypeRule

**Types.** From the loosest to the tightest: conditional types, unions, intersections, postfix
brackets (`T[]`, `T['key']`) and primary types. A function type, `readonly` and `infer` take as
much as they can; `keyof` takes one primary type. Unions and intersections nest to the left, one
node for each bar.
-/

namespace RouteBinder.Grammar

open RouteBinder.Source

/-! ### Arguments and parameters of generic types -/

/-- `<A, B>` after the name of a generic. -/
def typeArguments (inner : Inner) : Parse Item := do
  let opening ← mark "<"
  let parts ← commaSeparated (inner.type .enclosed)
  let comma ← Parse.optional (mark ",")
  let closing ← mark ">"
  pure (.branch .typeArguments ([opening] ++ parts ++ comma.toList ++ [closing]))

/-- `T`, `T extends C`, `T = D`. -/
def typeParameter (inner : Inner) : Parse Item := do
  let const ← Parse.optional (modifier "" ["const"] .symbol)
  let name ← name .typeIdentifier
  let constraint ← Parse.optional do
    let word ← keyword "extends" <|> mark ":"
    let type ← inner.type .enclosed
    pure (Item.branch .constraint [word, type])
  let default ← Parse.optional do
    let equals ← mark "="
    let type ← inner.type .enclosed
    pure (Item.branch .defaultType [equals, type])
  pure (.branch .typeParameter (const.toList ++ [name.as .name] ++
    (constraint.map (·.as .constraint)).toList ++ (default.map (·.as .value)).toList))

/-- `<T, U>` in front of parameters or after a declared name. -/
def typeParameters (inner : Inner) : Parse Item := do
  pure (.branch .typeParameters (← denseList "<" ">" (typeParameter inner)))

/-! ### Return types and signatures -/

/-- `x is T`. -/
def typePredicate (inner : Inner) (boundary : Boundary) : Parse Item := do
  let subject ← (do return (← keyword "this").retag .this) <|> name .identifier
  let word ← keyword "is"
  let type ← inner.type boundary
  pure (.branch .typePredicate [subject.as .name, word, type.as .type])

/-- `asserts x` or `asserts x is T`. -/
def assertsClause (inner : Inner) (boundary : Boundary) : Parse Item := do
  let word ← keyword "asserts"
  let subject ← typePredicate inner boundary <|>
    (do return (← keyword "this").retag .this) <|> name .identifier
  pure (.branch .asserts [word, subject])

/-- The annotation after the parameters of a function. -/
def returnType (inner : Inner) (boundary : Boundary) : Parse Item := do
  let colon ← mark ":"
  (do return .branch .assertionClause [colon, ← assertsClause inner boundary]) <|>
    (do return .branch .predicateClause [colon, ← typePredicate inner boundary]) <|>
    (do return .branch .typeClause [colon, ← inner.type boundary])

/-- Type parameters, parameters and return type, as parts of the enclosing construct. -/
def callSignatureParts (inner : Inner) (boundary : Boundary) : Parse (List Item) := do
  let generics ← Parse.optional (typeParameters inner)
  let parameters ← formalParameters inner
  let result ← Parse.optional (returnType inner boundary)
  pure ((generics.map (·.as .typeParameters)).toList ++ [parameters.as .parameters] ++
    (result.map (·.as .returnType)).toList)

/-! ### Members of object types -/

/-- `in` a mapped type or `:` in an index signature, between the brackets. -/
def indexKey (inner : Inner) : Parse (List Item) :=
  (do
    let name ← name .identifier
    let colon ← mark ":"
    let type ← inner.type .enclosed
    pure [name.as .name, colon, type.as .indexType]) <|>
  (do
    let name ← name .typeIdentifier
    let word ← keyword "in"
    let type ← inner.type .enclosed
    let renamed ← Parse.optional do
      let word ← keyword "as"
      let type ← inner.type .enclosed
      pure [word, type.as .alias]
    pure [.branch .mappedTypeClause
      ([name.as .name, word, type.as .type] ++ renamed.getD [])])

/-- `[k: string]: T`, `[K in T]?: U`, with an optional sign and `readonly` in front. -/
def indexSignature (inner : Inner) (boundary : Boundary) : Parse Item := do
  let sign ← Parse.optional (mark "-" <|> mark "+")
  let readonly ← Parse.optional (keyword "readonly")
  Parse.require (sign.isNone || readonly.isSome)
  let opening ← mark "["
  let key ← indexKey inner
  let closing ← mark "]"
  let clause ← (do
    let colon ← mark "-?:" <|> mark "+?:" <|> mark "?:" <|> mark ":"
    let type ← inner.type boundary
    pure (Item.branch .typeClause [colon, type]))
  pure (.branch .indexSignature ((sign.map (·.as .sign)).toList ++ readonly.toList ++ [opening] ++
    key ++ [closing, clause.as .type]))

/-- Modifiers in front of a member of an object type. -/
def memberModifiers : Parse (List Item) := do
  let access ← Parse.optional (modifier "\"'[#" accessibilityWords .accessibilityModifier)
  let static ← Parse.optional (modifier "\"'[#" ["static"] .symbol)
  let override ← Parse.optional (modifier "\"'[#" ["override"] .overrideModifier)
  let readonly ← Parse.optional (modifier "\"'[#" ["readonly"] .symbol)
  pure (access.toList ++ static.toList ++ override.toList ++ readonly.toList)

/-- `async`, `get`, `set` or `*` in front of the name of a method. -/
def methodModifiers : Parse (List Item) := do
  let async ← Parse.optional (modifier "\"'[#*" ["async"] .symbol)
  let form ← Parse.optional (modifier "\"'[#" ["get", "set"] .symbol <|> mark "*")
  pure (async.toList ++ form.toList)

def methodSignature (inner : Inner) (boundary : Boundary) : Parse Item := do
  let modifiers ← memberModifiers
  let form ← methodModifiers
  let name ← propertyName inner
  let question ← Parse.optional (mark "?")
  let signature ← callSignatureParts inner boundary
  pure (.branch .methodSignature
    (modifiers ++ form ++ [name.as .name] ++ question.toList ++ signature))

def propertySignature (inner : Inner) (boundary : Boundary) : Parse Item := do
  let modifiers ← memberModifiers
  let name ← propertyName inner
  let question ← Parse.optional (mark "?")
  let type ← Parse.optional (typeClause inner boundary)
  pure (.branch .propertySignature
    (modifiers ++ [name.as .name] ++ question.toList ++ (type.map (·.as .type)).toList))

/-- `new (...): T`. -/
def constructSignature (inner : Inner) (boundary : Boundary) : Parse Item := do
  let abstract ← Parse.optional (keyword "abstract")
  let word ← keyword "new"
  let generics ← Parse.optional (typeParameters inner)
  let parameters ← formalParameters inner
  let type ← Parse.optional (typeClause inner boundary)
  pure (.branch .constructSignature (abstract.toList ++ [word] ++
    (generics.map (·.as .typeParameters)).toList ++ [parameters.as .parameters] ++
    (type.map (·.as .type)).toList))

def callSignature (inner : Inner) (boundary : Boundary) : Parse Item := do
  pure (.branch .callSignature (← callSignatureParts inner boundary))

/-- A member of an object type or an interface. -/
def typeMember (inner : Inner) : Parse Item :=
  callSignature inner .type <|> constructSignature inner .type <|>
  indexSignature inner .type <|> methodSignature inner .type <|> propertySignature inner .type

/-- The members between braces, separated by commas, semicolons or line ends. -/
def objectTypeOf (inner : Inner) (kind : Kind) : Parse Item := do
  let opening ← mark "\x7b"
  let first ← Parse.optional (mark "," <|> mark ";")
  let members ← Parse.optional (typeMember inner)
  let rest ← if members.isSome then Parse.many (do
      let separator ← (do return [← mark ","]) <|> semicolon .type
      let member ← typeMember inner
      pure (separator ++ [member])) else pure []
  let last ← if members.isSome then Parse.optional (mark "," <|> mark ";") else pure none
  let closing ← mark "\x7d"
  pure (.branch kind
    ([opening] ++ first.toList ++ members.toList ++ rest.flatten ++ last.toList ++ [closing]))

/-! ### Primary types -/

def predefinedNames : List String :=
  ["any", "number", "boolean", "string", "symbol", "void", "unknown", "never", "object"]

def predefinedType : Parse Item :=
  (do return (← keywordOf predefinedNames).retag .predefinedType) <|>
  (do
    let unique ← keyword "unique"
    let symbol ← keyword "symbol"
    pure (.branch .predefinedType [unique, symbol]))

/-- A literal that stands for a type. -/
def literalType : Parse Item := do
  let value ← stringLiteral <|> numberLiteral <|>
    (do return (← keyword "true").retag .trueLiteral) <|>
    (do return (← keyword "false").retag .falseLiteral) <|>
    (do return (← keyword "null").retag .nullLiteral) <|>
    (do return (← keyword "undefined").retag .undefinedLiteral) <|>
    (do
      let sign ← mark "-" <|> mark "+"
      let number ← numberLiteral
      pure (.branch .unaryExpression [sign.as .operator, number.as .argument]))
  pure (.branch .literalType [value])

/-- A member of a tuple type, with or without a name. -/
def tupleMember (inner : Inner) : Parse Item :=
  (do
    let name ← name .identifier
    let question ← Parse.optional (mark "?")
    let type ← typeClause inner .enclosed
    let kind := if question.isSome then Kind.optionalParameter else .requiredParameter
    pure (.branch kind ([name.as .name] ++ question.toList ++ [type.as .type]))) <|>
  (do
    let dots ← mark "..."
    let name ← name .identifier
    let type ← typeClause inner .enclosed
    pure (.branch .requiredParameter
      [(Item.branch .restPattern [dots, name]).as .name, type.as .type])) <|>
  (do
    let dots ← mark "..."
    let type ← inner.type .enclosed
    pure (.branch .restType [dots, type])) <|>
  (do
    let type ← inner.type .enclosed
    let question ← Parse.optional (mark "?")
    match question with
    | some question => pure (.branch .optionalType [type, question])
    | none => pure type)

/-- What `typeof` asks about: a name followed by member and index accesses. -/
def queriedName (inner : Inner) (boundary : Boundary) : Parse Item := do
  let start ← (do return (← keyword "this").retag .this) <|>
    (do return (← keyword "import").retag .importName) <|> name .identifier
  Parse.chain (fun item =>
    (do
      let dot ← mark "?." <|> mark "."
      let property ← name .propertyIdentifier <|> privateName
      pure (.branch .memberExpression [item.as .object, dot, property.as .property])) <|>
    (do
      let arguments ← denseList "(" ")" stringLiteral
      pure (.branch .callExpression
        [item.as .function, (Item.branch .arguments arguments).as .arguments])) <|>
    (do
      goesOn boundary
      let arguments ← typeArguments inner
      pure (.branch .instantiationExpression [item.as .function, arguments.as .typeArguments])))
    start

/-- A name read as the name of a type: a qualified one names a type in a module. -/
def Item.asTypeName (item : Item) : Item :=
  match item.node with
  | .branch place .nestedIdentifier [scope, dot, last] =>
    let owner := scope.placedAt { gap := scope.gap, role := some .module }
    let member := Node.leaf { gap := last.gap, role := some .name } .typeIdentifier last.text
    { item with node := .branch place .nestedTypeIdentifier [owner, dot, member] }
  | _ => item.retag .typeIdentifier

/-- A possibly qualified name of a type, with its arguments. -/
def namedType (inner : Inner) (boundary : Boundary) : Parse Item := do
  let first ← name .identifier
  let qualified ← Parse.chain (fun item => do
    let dot ← mark "."
    let next ← name .identifier
    pure (.branch .nestedIdentifier [item.as .object, dot, next.as .property])) first
  let base := qualified.asTypeName
  (do
    goesOn boundary
    let arguments ← typeArguments inner
    pure (.branch .genericType [base.as .name, arguments.as .typeArguments])) <|> pure base

/-- `import('module').Name`. -/
def importedType (inner : Inner) (boundary : Boundary) : Parse Item := do
  Parse.require (← seesWord "import")
  queriedName inner boundary

/-- A type without operators, prefix or postfix. -/
def primaryType (inner : Inner) (boundary : Boundary) : Parse Item :=
  (do
    let word ← keyword "typeof"
    let name ← queriedName inner boundary
    pure (.branch .typeQuery [word, name])) <|>
  predefinedType <|> literalType <|> importedType inner boundary <|>
  (do return (← keyword "this").retag .thisType) <|>
  templateOf .templateLiteralType (substitutionOf .templateType (inner.type .enclosed)) <|>
  (do
    let opening ← mark "("
    let type ← inner.type .enclosed
    let closing ← mark ")"
    pure (.branch .parenthesizedType [opening, type, closing])) <|>
  objectTypeOf inner .objectType <|>
  (do return .branch .tupleType (← denseList "[" "]" (tupleMember inner))) <|>
  namedType inner boundary

/-- A primary type with the brackets after it. -/
def postfixType (inner : Inner) (boundary : Boundary) : Parse Item := do
  let first ← primaryType inner boundary
  Parse.chain (fun item => do
    goesOn boundary
    let opening ← mark "["
    (do
      let closing ← mark "]"
      pure (.branch .arrayType [item, opening, closing])) <|>
    (do
      let index ← inner.type .enclosed
      let closing ← mark "]"
      pure (.branch .lookupType [item, opening, index, closing]))) first

/-! ### Prefix and infix operators -/

/-- `(...) => T` and `new (...) => T`. -/
def functionType (inner : Inner) (boundary : Boundary) : Parse Item := do
  let abstract ← Parse.optional (keyword "abstract")
  let new ← Parse.optional (keyword "new")
  Parse.require (abstract.isNone || new.isSome)
  let generics ← Parse.optional (typeParameters inner)
  let parameters ← formalParameters inner
  let arrow ← mark "=>"
  let result ← (if new.isSome then failure else assertsClause inner boundary) <|>
    (if new.isSome then failure else typePredicate inner boundary) <|> inner.type boundary
  let kind := if new.isSome then Kind.constructorType else .functionType
  let role := if new.isSome then Role.type else .returnType
  pure (.branch kind (abstract.toList ++ new.toList ++
    (generics.map (·.as .typeParameters)).toList ++ [parameters.as .parameters, arrow,
    result.as role]))

/-- A type that is no union, intersection or conditional type at its top. -/
def prefixedType (inner : Inner) (boundary : Boundary) : Parse Item :=
  functionType inner boundary <|>
  (do
    let word ← modifier "([\x7b\"'" ["readonly"] .symbol
    let type ← inner.type boundary
    pure (.branch .readonlyType [word, type])) <|>
  (do
    let word ← modifier "([\x7b\"'\x60" ["keyof"] .symbol
    let type ← prefixedOperand
    pure (.branch .indexTypeQuery [word, type])) <|>
  (do
    let word ← modifier "" ["infer"] .symbol
    let name ← name .typeIdentifier
    let bound ← Parse.optional (do
      goesOn boundary
      let word ← keyword "extends"
      let type ← inner.type boundary
      pure [word, type])
    pure (.branch .inferType ([word, name] ++ bound.getD []))) <|>
  postfixType inner boundary
where
  /-- The operand of `keyof`, which may be another `keyof`. -/
  prefixedOperand : Parse Item := do
    let words ← Parse.many (modifier "([\x7b\"'\x60" ["keyof"] .symbol)
    let type ← postfixType inner boundary
    pure (words.foldr (fun word type => .branch .indexTypeQuery [word, type]) type)

/-- Operands joined by a sign, nested to the left; a sign may stand in front of the first. -/
def joinedTypes (sign : String) (kind : Kind) (operand : Parse Item) (boundary : Boundary) :
    Parse Item := do
  let opening ← Parse.optional (mark sign)
  let first ← operand
  let start := match opening with
    | some bar => Item.branch kind [bar, first]
    | none => first
  Parse.chain (fun left => do
    goesOn boundary
    Parse.require (!(← seesMark (sign ++ sign)) && !(← seesMark (sign ++ "=")))
    let bar ← mark sign
    let right ← operand
    pure (.branch kind [left, bar, right])) start

def unionType (inner : Inner) (boundary : Boundary) : Parse Item :=
  joinedTypes "|" .unionType
    (joinedTypes "&" .intersectionType (prefixedType inner boundary) boundary) boundary

/-- A type: `A extends B ? C : D` or a union. -/
def typeRule (inner : Inner) (boundary : Boundary) : Parse Item := do
  let left ← unionType inner boundary
  (do
    goesOn boundary
    let word ← keyword "extends"
    let right ← unionType inner .enclosed
    let question ← mark "?"
    let consequence ← inner.type .enclosed
    let colon ← mark ":"
    let alternative ← inner.type boundary
    pure (.branch .conditionalType [left.as .left, word, right.as .right, question,
      consequence.as .consequence, colon, alternative.as .alternative])) <|> pure left

end RouteBinder.Grammar
