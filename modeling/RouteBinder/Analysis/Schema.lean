import RouteBinder.Analysis.WrittenType
import RouteBinder.Analysis.Scope

/-!
# RouteBinder.Analysis.Schema

**Types described by validation schemas.** A schema is an expression that builds a validator: a
builder such as `z.object({…})`, followed by modifiers such as `.extend({…})` and `.optional()`.
`schemaType` is the type of the values that a schema accepts, as far as it can be read off.

Schemas refer to each other by the names of constants. Names are followed through the scope; one
that is already being followed stands for itself, as `z.infer<typeof name>`, so that recursive
schemas have a type. The rules are written over the reading of smaller nodes (`self`) and of
names (`follow`), which may keep a record of what is being read in a monad `m`. `interpret` ties the
knot without one.
-/

namespace RouteBinder.Analysis

open Source

/-- The type of a schema, and whether the value may be missing. -/
structure Parsed where
  type : TypeExpr
  optional : Bool := false
  deriving DecidableEq, Repr, Inhabited

/-- The type of a value that may be missing includes `undefined`. -/
def Parsed.asType (parsed : Parsed) : TypeExpr :=
  if parsed.optional then .unionOf [parsed.type, .undefined] else parsed.type

namespace Schema

/-! ### Vocabulary -/

/-- What builders are called on. -/
def namespaces : List String := ["z", "zod", "z.coerce", "zod.coerce"]

/-- Generic types of annotated schemas, whose last argument is the accepted type. -/
def schemaClasses : List String := ["ZodType", "ZodSchema", "z.ZodType", "z.ZodSchema", "Schema"]

/-- Builders of a fixed type. -/
def basicBuilders : List (String × TypeExpr) :=
  [("string", .string), ("number", .number), ("bigint", .primitive "bigint"),
    ("boolean", .boolean), ("date", .named "Date"), ("null", .null), ("undefined", .undefined),
    ("any", .primitive "any"), ("unknown", .unknown), ("void", .void),
    ("never", .primitive "never")]

/-- Modifiers that keep the accepted type. -/
def refinements : List String :=
  ["min", "max", "length", "email", "url", "uuid", "cuid", "regex", "trim", "toLowerCase",
    "toUpperCase", "startsWith", "endsWith", "int", "positive", "negative", "nonnegative",
    "nonpositive", "finite", "gt", "gte", "lt", "lte", "multipleOf", "nonempty", "refine",
    "superRefine", "describe", "default", "catch", "strict", "passthrough", "strip", "brand",
    "readonly", "datetime", "ip", "emoji", "includes"]

/-- Modifiers that make another record of a record. -/
def reshapers : List String :=
  ["extend", "merge", "partial", "required", "pick", "omit", "deepPartial"]

/-- Modifiers after which nothing is known. -/
def forgetfulModifiers : List String := ["transform", "pipe", "preprocess"]

/-! ### Literals and masks -/

/-- A literal type for a string: quotes inside get a backslash. -/
def literalText (value : String) : String :=
  let escaped := value.toList.flatMap fun c => if c == '\x27' then ['\\', '\x27'] else [c]
  "'" ++ String.ofList escaped ++ "'"

/-- The type of a literal expression. -/
def literalType (node : Node) : TypeExpr :=
  match node.unwrap? with
  | none => .unknown
  | some literal =>
    match literal.kind with
    | .string => .named (literalText (literal.stringValue?.getD ""))
    | .number | .trueLiteral | .falseLiteral | .nullLiteral => .named literal.text
    | _ => .unknown

/-- The elements of an array literal. -/
def arrayElements? (node : Node) : Option (List Node) :=
  match node.unwrap? with
  | some array => if array.kind == .array then some array.namedChildren else none
  | none => none

/-- The members of an object literal. -/
def objectMembers? (node : Node) : Option (List Node) :=
  match node.unwrap? with
  | some object => if object.kind == .object then some object.namedChildren else none
  | none => none

/-- The keys that a mask such as `{ a: true }` names. -/
def maskKeys (node : Node) : List String :=
  ((objectMembers? node).getD []).filterMap fun member =>
    match member.kind with
    | .pair => (member.field? .key).map Node.keyName
    | .shorthandPropertyIdentifier => some member.text
    | _ => none

/-! ### Rules -/

section Rules

variable {m : Type → Type} [Monad m] (self : Node → m (Option Parsed))
  (follow : String → m (Option Parsed))

/-- The type of an expression in the place of a schema. -/
def elementType (node : Node) : m TypeExpr := do
  let parsed ← self node
  return (parsed.map Parsed.asType).getD .unknown

/-- The schema that an expression stands for, if there is an expression. -/
def optionalSchema : Option Node → m (Option Parsed)
  | some node => self node
  | none => return none

/-- A field whose type is given by a schema. -/
def schemaField (name : String) : Option Parsed → Field
  | some parsed => ⟨name, parsed.type, parsed.optional⟩
  | none => ⟨name, .unknown, false⟩

/-- The field that a member of an object literal describes. -/
def memberField? (member : Node) : m (Option Field) :=
  match member.kind with
  | .pair => do
    let parsed ← optionalSchema self (member.field? .value)
    return some (schemaField (((member.field? .key).map Node.keyName).getD "") parsed)
  | .shorthandPropertyIdentifier => do
    let parsed ← follow member.text
    return some (schemaField member.text parsed)
  | _ => return none

/-- The record that an object literal describes. -/
def shapeType (node : Node) : m TypeExpr :=
  match objectMembers? node with
  | some members => do
    let fields ← members.mapM (memberField? self follow)
    return .record (fields.filterMap id)
  | none => return .unknown

/-- The schema that a builder makes of its arguments. -/
def builder (method : String) (args : List Node) : m (Option Parsed) :=
  match basicBuilders.lookup method, args.head?, args.getLast? with
  | some type, _, _ => return some { type }
  | none, some first, some last =>
    match method with
    | "literal" => return some { type := literalType first }
    | "enum" =>
      match arrayElements? first with
      | some elements => return some { type := .unionOf (elements.map literalType) }
      | none => return some { type := .named "string" }
    | "nativeEnum" => return some { type := .named first.text }
    | "array" => do
      let type ← elementType self first
      return some { type := .array type }
    | "object" | "strictObject" | "looseObject" => do
      let type ← shapeType self follow first
      return some { type }
    | "record" => do
      let type ← elementType self last
      return some { type := .named ("Record<string, " ++ type.render ++ ">") }
    | "union" | "discriminatedUnion" =>
      match arrayElements? last with
      | some options => do
        let types ← options.mapM (elementType self)
        return some { type := .unionOf types }
      | none => return none
    | "tuple" =>
      match arrayElements? first with
      | some items => do
        let types ← items.mapM (elementType self)
        let texts := types.map TypeExpr.render
        return some { type := .named ("[" ++ String.intercalate ", " texts ++ "]") }
      | none => return none
    | "optional" => do
      let type ← elementType self first
      return some { type, optional := true }
    | "nullable" => do
      let type ← elementType self first
      return some { type := .unionOf [type, .null] }
    | _ => return none
  | none, _, _ => return none

/-- The record that a modifier makes of a record. -/
def reshape (fields : List Field) (method : String) (args : List Node) : m TypeExpr :=
  match method, args with
  | "extend", shape :: _ => do
    let added ← shapeType self follow shape
    return .recordOf (fields ++ added.fields)
  | "merge", other :: _ => do
    let added ← elementType self other
    return .recordOf (fields ++ added.fields)
  | "partial", _ | "deepPartial", _ =>
    return .record (fields.map fun f => { f with optional := true })
  | "required", _ => return .record (fields.map fun f => { f with optional := false })
  | "pick", mask :: _ => return .record (fields.filter fun f => (maskKeys mask).contains f.name)
  | "omit", mask :: _ => return .record (fields.filter fun f => !(maskKeys mask).contains f.name)
  | _, _ => return .record fields

/-- The schema that a modifier makes of a schema. -/
def modifier (inner : Parsed) (method : String) (args : List Node) : m (Option Parsed) :=
  if refinements.contains method then return some inner
  else if reshapers.contains method then
    match inner.type with
    | .record fields => do
      let type ← reshape self follow fields method args
      return some { type }
    | _ => return some { type := .unknown }
  else if forgetfulModifiers.contains method then return some { type := .unknown }
  else
    match method, args with
    | "optional", _ => return some { inner with optional := true }
    | "nullable", _ => return some { inner with type := .unionOf [inner.type, .null] }
    | "nullish", _ => return some { type := .unionOf [inner.type, .null], optional := true }
    | "array", _ => return some { type := .array inner.asType }
    | "or", other :: _ => do
      let type ← elementType self other
      return some { type := .unionOf [inner.asType, type] }
    | _, _ => return none

/-- The schema that an expression stands for. -/
def expressionRule (node : Node) : m (Option Parsed) :=
  match node.unwrap? with
  | none => return none
  | some expression =>
    match expression.kind with
    | .identifier => follow expression.text
    | .callExpression =>
      match (expression.field? .function).bind Node.memberParts? with
      | some (object, method) =>
        let args := expression.callArguments
        if namespaces.contains object.text then builder self follow method args
        else do
          match ← self object with
          | some inner => modifier self follow inner method args
          | none => return none
      | none => return none
    | _ => return none

end Rules

/-! ### Interpretation -/

/-- The type that a constant is annotated with as a schema. -/
def declaredType? (scope : Scope) (name : String) : Option TypeExpr :=
  match (scope.lookup? name).bind Binding.declaredType with
  | some type =>
    if type.kind == .genericType && schemaClasses.contains (genericName type) then
      (typeArguments type).getLast?.map writtenType
    else none
  | none => none

/-- The schema that an expression stands for, while the names in `following` are being followed. -/
def interpret (scope : Scope) (following : List String) (node : Node) : Option Parsed :=
  Id.run <| expressionRule
    (fun part => if _h : part.size < node.size then interpret scope following part else none)
    (fun name =>
      match declaredType? scope name with
      | some type => some { type }
      | none =>
        if _fresh : following.contains name = false then
          match _found : scope.lookup? name with
          | some binding =>
            match binding.kind, binding.value with
            | .simple, some value => interpret scope (name :: following) value
            | _, _ => none
          | none => none
        else some { type := .named ("z.infer<typeof " ++ name ++ ">") })
    node
termination_by (scope.unlisted following, node.size)
decreasing_by
  · exact Prod.Lex.right _ _h
  · exact Prod.Lex.left _ _ (Scope.unlisted_cons_lt _found _fresh)

end Schema

/-- The type of the values that a schema expression accepts. -/
def schemaType? (scope : Scope) (node : Node) : Option TypeExpr :=
  (Schema.interpret scope [] node).map Parsed.asType

end RouteBinder.Analysis
