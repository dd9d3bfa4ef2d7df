/-!
# RouteBinder.Source.Kind

**Kinds of source nodes and the roles they play.** A `Kind` says which construct of the
TypeScript language a node is; a `Role` says which part of its parent a node is (the `name` of a
declaration, the `left` operand of an operator, …). Analyses look at kinds and roles only, so both
are plain enumerations with decidable equality.

Punctuation and keywords carry no structure of their own: they all have the kind `symbol` and are
told apart by their text.
-/

namespace RouteBinder.Source

/-- The construct a node stands for. -/
inductive Kind where
  -- trivia and punctuation
  | comment | hashBangLine | symbol
  -- what fits nowhere
  | error
  -- names
  | identifier | propertyIdentifier | privatePropertyIdentifier | statementIdentifier
  | typeIdentifier | shorthandPropertyIdentifier | shorthandPropertyIdentifierPattern
  | computedPropertyName | nestedIdentifier | nestedTypeIdentifier
  -- literals
  | number | string | templateString | stringFragment | templateSubstitution | regex
  | trueLiteral | falseLiteral | nullLiteral | undefinedLiteral
  -- expressions
  | this | super | importName | metaProperty
  | parenthesizedExpression | sequenceExpression | spreadElement
  | object | pair | array
  | functionExpression | generatorFunction | arrowFunction | classExpression
  | callExpression | newExpression | memberExpression | subscriptExpression
  | optionalChain | arguments | awaitExpression | yieldExpression
  | unaryExpression | updateExpression | binaryExpression | ternaryExpression
  | assignmentExpression | augmentedAssignmentExpression
  | asExpression | satisfiesExpression | nonNullExpression | typeAssertion
  | instantiationExpression
  -- patterns and parameters
  | objectPattern | arrayPattern | pairPattern | restPattern | assignmentPattern
  | objectAssignmentPattern | formalParameters | requiredParameter | optionalParameter
  | accessibilityModifier | overrideModifier | decorator
  -- statements
  | program | statementBlock | expressionStatement | emptyStatement | lexicalDeclaration
  | variableDeclaration | variableDeclarator | returnStatement | throwStatement
  | breakStatement | continueStatement | debuggerStatement | labeledStatement
  | ifStatement | elseClause | forStatement | forInStatement | whileStatement | doStatement
  | withStatement | switchStatement | switchBody | switchCase | switchDefault
  | tryStatement | catchClause | finallyClause
  -- declarations
  | functionDeclaration | generatorFunctionDeclaration | functionSignature
  | classDeclaration | abstractClassDeclaration | classHeritage | extendsClause
  | implementsClause | classBody | methodDefinition | publicFieldDefinition
  | classStaticBlock | methodSignature | abstractMethodSignature
  | enumDeclaration | enumBody | enumAssignment
  | interfaceDeclaration | interfaceBody | extendsTypeClause
  | typeAliasDeclaration | moduleDeclaration | internalModule | ambientDeclaration
  -- modules
  | importStatement | importClause | namedImports | importSpecifier | namespaceImport
  | importAttribute | importRequireClause | importAlias
  | exportStatement | exportClause | exportSpecifier | namespaceExport
  -- types
  | typeClause | typeArguments | typeParameters | typeParameter | constraint
  | defaultType | typePredicate | predicateClause | asserts | assertionClause
  | predefinedType | literalType | genericType | arrayType | tupleType | unionType
  | intersectionType | parenthesizedType | functionType | constructorType | readonlyType
  | conditionalType | inferType | indexTypeQuery | typeQuery | lookupType | thisType
  | templateLiteralType | templateType | objectType | propertySignature | callSignature
  | constructSignature | indexSignature | mappedTypeClause | optionalType | restType
  deriving DecidableEq, Repr, Inhabited

/-- The part of its parent a node is. -/
inductive Role where
  | name | value | type | body | label | kind | key | pattern | source | alias
  | declaration | parameters | parameter | returnType | typeParameters | typeArguments
  | function | arguments | constructor | object | property | index | optionalChain
  | left | right | operator | argument
  | condition | consequence | alternative | initializer | increment
  | handler | finalizer | decorator | constraint | module | indexType | sign
  deriving DecidableEq, Repr, Inhabited

end RouteBinder.Source
