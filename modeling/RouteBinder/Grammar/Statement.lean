import RouteBinder.Grammar.Expression

/-!
# RouteBinder.Grammar.Statement

**Statements, declarations, imports and exports.** Most statements are recognised from their first
keyword. Words such as `type` or `namespace` are keywords only where a declaration follows them;
otherwise they are names, so the declaration is tried first and the expression last.
-/

namespace RouteBinder.Grammar

open RouteBinder.Source

/-! ### Variables -/

/-- `name: T = value`, or `name!: T`. -/
def variableDeclarator (inner : Inner) (boundary : Boundary) : Parse Item :=
  (do
    let name ← name .identifier
    let sign ← mark "!"
    let type ← typeClause inner .type
    pure (.branch .variableDeclarator [name.as .name, sign, type.as .type])) <|>
  (do
    let target ← bindingTarget inner
    let type ← Parse.optional (typeClause inner .type)
    let value ← Parse.optional (initializer inner boundary)
    pure (.branch .variableDeclarator
      ([target.as .name] ++ (type.map (·.as .type)).toList ++ value.getD [])))

/-- Does the last of the declarators end with a value? -/
def endsWithValue (declarators : List Item) : Boundary :=
  match declarators.getLast? with
  | some last =>
    if last.node.children.any (·.role == some .value) then .expression else .type
  | none => .type

/-- `const a = 1, b = 2`, `let …` or `var …`. -/
def variableDeclaration (inner : Inner) : Parse Item := do
  let word ← keywordOf ["const", "let", "var"]
  let declarators ← commaSeparated (variableDeclarator inner .expression)
  let ending ← semicolon (endsWithValue declarators)
  if word.node.isSymbol "var" then
    pure (.branch .variableDeclaration ([word] ++ declarators ++ ending))
  else
    pure (.branch .lexicalDeclaration ([word.as .kind] ++ declarators ++ ending))

/-! ### Control flow -/

/-- Words that cannot start an expression where a statement may start. -/
def statementWords : List String :=
  ["if", "switch", "for", "while", "do", "try", "with", "break", "continue", "return", "throw",
    "var", "const", "debugger", "abstract", "enum", "interface"]

/-- An expression used as a statement. -/
def expressionStatement (inner : Inner) : Parse Item := do
  Parse.require !(statementWords.contains (← nextName))
  let value ← expressions inner .expression
  let ending ← semicolon .expression
  pure (.branch .expressionStatement (value :: ending))

def emptyStatement : Parse Item := do
  return .branch .emptyStatement [← mark ";"]

def ifStatement (inner : Inner) : Parse Item := do
  let word ← keyword "if"
  let condition ← parenthesized inner
  let consequence ← inner.statement
  let alternative ← Parse.optional do
    let word ← keyword "else"
    let statement ← inner.statement
    pure (Item.branch .elseClause [word, statement])
  pure (.branch .ifStatement ([word, condition.as .condition, consequence.as .consequence] ++
    (alternative.map (·.as .alternative)).toList))

/-- `for (init; test; step) body`. -/
def forStatement (inner : Inner) : Parse Item := do
  let word ← keyword "for"
  let opening ← mark "("
  let initial ←
    (do
      let declaration ← variableDeclaration inner
      pure [declaration.as .initializer]) <|>
    (do
      let empty ← emptyStatement
      pure [empty.as .initializer]) <|>
    (do
      let value ← expressions inner .enclosed
      let ending ← mark ";"
      pure [value.as .initializer, ending])
  let condition ←
    (do
      let empty ← emptyStatement
      pure [empty.as .condition]) <|>
    (do
      let value ← expressions inner .enclosed
      let ending ← mark ";"
      pure [value.as .condition, ending.as .condition])
  let increment ← Parse.optional (expressions inner .enclosed)
  let closing ← mark ")"
  let body ← inner.statement
  pure (.branch .forStatement ([word, opening] ++ initial ++ condition ++
    (increment.map (·.as .increment)).toList ++ [closing, body.as .body]))

/-- `for (const x of xs) body`, `for (x in xs) body`. -/
def forInStatement (inner : Inner) : Parse Item := do
  let word ← keyword "for"
  let await ← Parse.optional (keyword "await")
  let opening ← mark "("
  let target ←
    (do
      let kind ← keywordOf ["const", "let", "var"]
      let target ← bindingTarget inner
      let value ← Parse.optional (initializer inner .enclosed)
      pure ([kind.as .kind, target.as .left] ++ value.getD [])) <|>
    (do
      let target ← inner.target <|> parenthesized inner
      pure [target.as .left])
  let operator ← keywordOf ["of", "in"]
  let value ← expressions inner .enclosed
  let closing ← mark ")"
  let body ← inner.statement
  pure (.branch .forInStatement ([word] ++ await.toList ++ [opening] ++ target ++
    [operator.as .operator, value.as .right, closing, body.as .body]))

def whileStatement (inner : Inner) : Parse Item := do
  let word ← keyword "while"
  let condition ← parenthesized inner
  let body ← inner.statement
  pure (.branch .whileStatement [word, condition.as .condition, body.as .body])

def doStatement (inner : Inner) : Parse Item := do
  let word ← keyword "do"
  let body ← inner.statement
  let loop ← keyword "while"
  let condition ← parenthesized inner
  let ending ← Parse.optional (mark ";")
  pure (.branch .doStatement ([word, body.as .body, loop, condition.as .condition] ++
    ending.toList))

def withStatement (inner : Inner) : Parse Item := do
  let word ← keyword "with"
  let object ← parenthesized inner
  let body ← inner.statement
  pure (.branch .withStatement [word, object.as .object, body.as .body])

/-- A statement of a `case`, which ends where the next one begins. -/
def caseStatement (inner : Inner) : Parse Item := do
  Parse.require (!(← seesWord "case") && !(← Parse.sees (keyword "default" *> mark ":")))
  inner.statement

def switchStatement (inner : Inner) : Parse Item := do
  let word ← keyword "switch"
  let value ← parenthesized inner
  let opening ← mark "\x7b"
  let cases ← Parse.many (
    (do
      let word ← keyword "case"
      let value ← expressions inner .enclosed
      let colon ← mark ":"
      let body ← Parse.many (caseStatement inner)
      pure (Item.branch .switchCase
        ([word, value.as .value, colon] ++ body.map (·.as .body)))) <|>
    (do
      let word ← keyword "default"
      let colon ← mark ":"
      let body ← Parse.many (caseStatement inner)
      pure (Item.branch .switchDefault ([word, colon] ++ body.map (·.as .body)))))
  let closing ← mark "\x7d"
  let body := Item.branch .switchBody ([opening] ++ cases ++ [closing])
  pure (.branch .switchStatement [word, value.as .value, body.as .body])

def tryStatement (inner : Inner) : Parse Item := do
  let word ← keyword "try"
  let body ← statementBlock inner
  let handler ← Parse.optional do
    let word ← keyword "catch"
    let parameter ← Parse.optional do
      let opening ← mark "("
      let target ← bindingTarget inner
      let type ← Parse.optional (typeClause inner .enclosed)
      let closing ← mark ")"
      pure ([opening, target.as .parameter] ++ (type.map (·.as .type)).toList ++ [closing])
    let body ← statementBlock inner
    pure (Item.branch .catchClause ([word] ++ parameter.getD [] ++ [body.as .body]))
  let finalizer ← Parse.optional do
    let word ← keyword "finally"
    let body ← statementBlock inner
    pure (Item.branch .finallyClause [word, body.as .body])
  pure (.branch .tryStatement ([word, body.as .body] ++ (handler.map (·.as .handler)).toList ++
    (finalizer.map (·.as .finalizer)).toList))

/-- `break` or `continue`, with a label or without. -/
def jumpStatement (word : String) (kind : Kind) : Parse Item := do
  let word ← keyword word
  let label ← if ← endsHere .type then pure none
    else Parse.optional (name .statementIdentifier)
  let ending ← semicolon .type
  pure (.branch kind ([word] ++ (label.map (·.as .label)).toList ++ ending))

def returnStatement (inner : Inner) : Parse Item := do
  let word ← keyword "return"
  let value ← if ← endsHere .type then pure none
    else Parse.optional (expressions inner .expression)
  let ending ← semicolon (if value.isSome then .expression else .type)
  pure (.branch .returnStatement ([word] ++ value.toList ++ ending))

def throwStatement (inner : Inner) : Parse Item := do
  let word ← keyword "throw"
  let value ← expressions inner .expression
  let ending ← semicolon .expression
  pure (.branch .throwStatement ([word, value] ++ ending))

def debuggerStatement : Parse Item := do
  let word ← keyword "debugger"
  let ending ← semicolon .type
  pure (.branch .debuggerStatement (word :: ending))

def labeledStatement (inner : Inner) : Parse Item := do
  let label ← name .statementIdentifier
  let colon ← mark ":"
  let body ← inner.statement
  pure (.branch .labeledStatement [label.as .label, colon, body.as .body])

/-! ### Types, enumerations and namespaces -/

def typeAliasDeclaration (inner : Inner) : Parse Item := do
  let word ← keyword "type"
  let name ← name .typeIdentifier
  let generics ← Parse.optional (typeParameters inner)
  let equals ← mark "="
  let type ← inner.type .type
  let ending ← semicolon .type
  pure (.branch .typeAliasDeclaration ([word, name.as .name] ++
    (generics.map (·.as .typeParameters)).toList ++ [equals, type.as .value] ++ ending))

def interfaceDeclaration (inner : Inner) : Parse Item := do
  let word ← keyword "interface"
  let name ← name .typeIdentifier
  let generics ← Parse.optional (typeParameters inner)
  let parents ← Parse.optional do
    let word ← keyword "extends"
    let types ← commaSeparated (do return (← namedType inner .enclosed).as .type)
    pure (Item.branch .extendsTypeClause (word :: types))
  let body ← objectTypeOf inner .interfaceBody
  pure (.branch .interfaceDeclaration ([word, name.as .name] ++
    (generics.map (·.as .typeParameters)).toList ++ parents.toList ++ [body.as .body]))

def enumDeclaration (inner : Inner) : Parse Item := do
  let const ← Parse.optional (keyword "const")
  let word ← keyword "enum"
  let name ← name .identifier
  let members ← denseList "\x7b" "\x7d" do
    let name ← propertyName inner
    (do
      let value ← initializer inner .enclosed
      pure (Item.branch .enumAssignment (name.as .name :: value))) <|> pure (name.as .name)
  pure (.branch .enumDeclaration (const.toList ++ [word, name.as .name,
    (Item.branch .enumBody members).as .body]))

/-- A name, possibly qualified. -/
def qualifiedName : Parse Item := do
  let first ← name .identifier
  Parse.chain (fun item => do
    let dot ← mark "."
    let next ← name .identifier
    pure (.branch .nestedIdentifier [item.as .object, dot, next.as .property])) first

/-- `namespace N { … }` or `module 'm' { … }`. -/
def moduleParts (inner : Inner) (word : String) (kind : Kind) : Parse Item := do
  let word ← keyword word
  let name ← stringLiteral <|> qualifiedName
  let body ← Parse.optional (statementBlock inner)
  pure (.branch kind ([word, name.as .name] ++ (body.map (·.as .body)).toList))

def namespaceDeclaration (inner : Inner) : Parse Item :=
  moduleParts inner "namespace" .internalModule

/-- A namespace standing as a statement of its own. -/
def namespaceStatement (inner : Inner) : Parse Item := do
  let value ← namespaceDeclaration inner
  Parse.require (value.node.field? .body).isSome
  let ending ← Parse.optional (mark ";")
  pure (.branch .expressionStatement (value :: ending.toList))

/-- `import Name = Other.Name;`. -/
def importAlias : Parse Item := do
  let word ← keyword "import"
  let name ← name .identifier
  let equals ← mark "="
  let value ← qualifiedName
  let ending ← semicolon .type
  pure (.branch .importAlias ([word, name, equals, value] ++ ending))

/-- A declaration other than an ambient one. -/
def plainDeclaration (inner : Inner) (decorators : List Item) : Parse Item :=
  functionDeclaration inner <|> classDeclaration inner decorators <|> enumDeclaration inner <|>
  variableDeclaration inner <|> typeAliasDeclaration inner <|> interfaceDeclaration inner <|>
  namespaceDeclaration inner <|> moduleParts inner "module" .moduleDeclaration <|> importAlias

/-- `declare` in front of a declaration or of `global`. -/
def ambientDeclaration (inner : Inner) : Parse Item := do
  let word ← keyword "declare"
  let parts ←
    (do
      let global ← keyword "global"
      let body ← statementBlock inner
      pure [global, body]) <|>
    (do return [← plainDeclaration inner []])
  pure (.branch .ambientDeclaration (word :: parts))

/-- A declaration, which can be exported. -/
def declaration (inner : Inner) (decorators : List Item) : Parse Item :=
  plainDeclaration inner decorators <|> ambientDeclaration inner

/-! ### Imports -/

/-- A name that a module exports: a plain name or a string. -/
def exportedName : Parse Item := stringLiteral <|> name .identifier

/-- `name`, `name as local`, with `type` in front or without. -/
def importSpecifier : Parse Item :=
  (do
    let specifier ← specifierParts exportedName
    Parse.require ((← seesMark ",") || (← seesMark "\x7d"))
    pure (.branch .importSpecifier specifier)) <|>
  (do
    let word ← keywordOf ["type", "typeof"]
    let specifier ← specifierParts exportedName
    pure (.branch .importSpecifier (word :: specifier)))
where
  specifierParts (outer : Parse Item) : Parse (List Item) := do
    let name ← outer
    let renamed ← Parse.optional do
      let word ← keyword "as"
      let name ← exportedName
      pure [word, name.as .alias]
    pure (name.as .name :: renamed.getD [])

def namedImports : Parse Item := do
  return .branch .namedImports (← denseList "\x7b" "\x7d" importSpecifier)

def namespaceImport : Parse Item := do
  let star ← mark "*"
  let word ← keyword "as"
  let name ← name .identifier
  pure (.branch .namespaceImport [star, word, name])

/-- What an import binds. -/
def importClause : Parse Item :=
  (do return .branch .importClause [← namespaceImport <|> namedImports]) <|>
  (do
    let default ← name .identifier
    let others ← Parse.optional do
      let comma ← mark ","
      let rest ← namespaceImport <|> namedImports
      pure [comma, rest]
    pure (.branch .importClause (default :: others.getD [])))

/-- `from 'module'`. -/
def fromClause : Parse (List Item) := do
  let word ← keyword "from"
  let source ← stringLiteral
  pure [word, source.as .source]

/-- `with { type: 'json' }` behind an import. -/
def importAttribute (inner : Inner) : Parse Item := do
  let word ← keywordOf ["with", "assert"]
  let object ← objectLiteral inner
  pure (.branch .importAttribute [word, object])

/-- `name = require('module')`. -/
def importRequireClause : Parse Item := do
  let name ← name .identifier
  let equals ← mark "="
  let word ← keyword "require"
  let opening ← mark "("
  let source ← stringLiteral
  let closing ← mark ")"
  pure (.branch .importRequireClause [name, equals, word, opening, source.as .source, closing])

def importStatement (inner : Inner) : Parse Item := do
  let word ← keyword "import"
  let parts ← whatFollows <|> (do
    let modifier ← keywordOf ["type", "typeof"]
    return modifier :: (← whatFollows))
  let options ← if ← endsHere .type then pure none
    else Parse.optional (importAttribute inner)
  let ending ← semicolon .type
  pure (.branch .importStatement ([word] ++ parts ++ options.toList ++ ending))
where
  whatFollows : Parse (List Item) :=
    (do
      let source ← stringLiteral
      pure [source.as .source]) <|>
    (do return [← importRequireClause]) <|>
    (do
      let clause ← importClause
      return clause :: (← fromClause))

/-! ### Exports -/

def exportSpecifier : Parse Item :=
  (do
    let specifier ← importSpecifier.specifierParts exportedName
    Parse.require ((← seesMark ",") || (← seesMark "\x7d"))
    pure (.branch .exportSpecifier specifier)) <|>
  (do
    let word ← keywordOf ["type", "typeof"]
    let specifier ← importSpecifier.specifierParts exportedName
    pure (.branch .exportSpecifier (word :: specifier)))

def exportClause : Parse Item := do
  return .branch .exportClause (← denseList "\x7b" "\x7d" exportSpecifier)

/-- An export that declares nothing: `export { a } from 'm'`, `export * from 'm'`. -/
def reexport : Parse (List Item) :=
  (do
    let star ← mark "*"
    let source ← fromClause
    pure (star :: source)) <|>
  (do
    let star ← mark "*"
    let word ← keyword "as"
    let name ← exportedName
    let source ← fromClause
    pure (.branch .namespaceExport [star, word, name] :: source)) <|>
  (do
    let type ← Parse.optional (keyword "type")
    let clause ← exportClause
    let source ← Parse.optional fromClause
    pure (type.toList ++ [clause] ++ source.getD []))

def exportStatement (inner : Inner) : Parse Item := do
  let decorators ← decorators inner
  let word ← keyword "export"
  let start := decorators ++ [word]
  (do
    let parts ← reexport
    let ending ← semicolon .type
    pure (.branch .exportStatement (start ++ parts ++ ending))) <|>
  (do
    let default ← keyword "default"
    (do
      let value ← declaration inner []
      pure (.branch .exportStatement (start ++ [default, value.as .declaration]))) <|>
    (do
      let value ← inner.expression .expression
      let ending ← semicolon .expression
      pure (.branch .exportStatement (start ++ [default, value.as .value] ++ ending)))) <|>
  (do
    let equals ← mark "="
    let value ← inner.expression .expression
    let ending ← semicolon .expression
    pure (.branch .exportStatement (start ++ [equals, value] ++ ending))) <|>
  (do
    let first ← keyword "as"
    let second ← keyword "namespace"
    let name ← name .identifier
    let ending ← semicolon .type
    pure (.branch .exportStatement (start ++ [first, second, name] ++ ending))) <|>
  (do
    let decorators ← Parse.many (decorator inner)
    let value ← declaration inner decorators
    pure (.branch .exportStatement (start ++ [value.as .declaration])))

/-! ### All statements -/

/-- A statement. -/
def statementRule (inner : Inner) : Parse Item :=
  emptyStatement <|> statementBlock inner <|> exportStatement inner <|> importStatement inner <|>
  ifStatement inner <|> forStatement inner <|> forInStatement inner <|> whileStatement inner <|>
  doStatement inner <|> withStatement inner <|> switchStatement inner <|> tryStatement inner <|>
  jumpStatement "break" .breakStatement <|> jumpStatement "continue" .continueStatement <|>
  returnStatement inner <|> throwStatement inner <|> debuggerStatement <|>
  namespaceStatement inner <|> declaration inner [] <|>
  (do
    let decorators ← Parse.many (decorator inner)
    Parse.require !decorators.isEmpty
    classDeclaration inner decorators) <|>
  labeledStatement inner <|> expressionStatement inner

end RouteBinder.Grammar
