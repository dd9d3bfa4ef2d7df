import RouteBinder.Text.Identifier
import RouteBinder.Text.Lines

/-!
# RouteBinder.TypeExpr

**Type expressions.** Handlers are described by small types that are read off the syntax of a route
file; no type checker runs. A type is written back into emitted code by `TypeExpr.render`.

Two constructors keep types in a normal form, so that equal types are written alike:

* `TypeExpr.unionOf` flattens unions, removes repeated members and absorbs everything into
  `unknown`;
* `TypeExpr.recordOf` keeps one field for each name, at the place of the first and with the type of
  the last.
-/

namespace RouteBinder

open Text

/-- A field of a record whose type is an `α`. -/
structure FieldOf (α : Type) where
  name : String
  type : α
  optional : Bool := false
  deriving DecidableEq, Repr, Inhabited

/-- A type of the emitted code. -/
inductive TypeExpr where
  /-- Nothing is known of the value. -/
  | unknown
  /-- There is no value. -/
  | void
  | primitive (name : String)
  | array (element : TypeExpr)
  | record (fields : List (FieldOf TypeExpr))
  | union (members : List TypeExpr)
  /-- A type that is not looked into, kept as its text. -/
  | named (text : String)
  deriving Repr, Inhabited

/-- A field of a record type. -/
abbrev Field := FieldOf TypeExpr

namespace TypeExpr

/-! ### Equality -/

mutual
def decEq : (s t : TypeExpr) → Decidable (s = t)
  | .unknown, t => by
    cases t with
    | unknown => exact isTrue rfl
    | _ => exact isFalse nofun
  | .void, t => by
    cases t with
    | void => exact isTrue rfl
    | _ => exact isFalse nofun
  | .primitive a, t => by
    cases t with
    | primitive b => exact decidable_of_iff (a = b) (by simp)
    | _ => exact isFalse nofun
  | .array a, t => by
    cases t with
    | array b =>
      have := decEq a b
      exact decidable_of_iff (a = b) (by simp)
    | _ => exact isFalse nofun
  | .record a, t => by
    cases t with
    | record b =>
      have := decEqFields a b
      exact decidable_of_iff (a = b) (by simp)
    | _ => exact isFalse nofun
  | .union a, t => by
    cases t with
    | union b =>
      have := decEqMembers a b
      exact decidable_of_iff (a = b) (by simp)
    | _ => exact isFalse nofun
  | .named a, t => by
    cases t with
    | named b => exact decidable_of_iff (a = b) (by simp)
    | _ => exact isFalse nofun

def decEqFields : (s t : List (FieldOf TypeExpr)) → Decidable (s = t)
  | [], [] => isTrue rfl
  | [], _ :: _ => isFalse nofun
  | _ :: _, [] => isFalse nofun
  | ⟨name, type, optional⟩ :: s, ⟨name', type', optional'⟩ :: t =>
    have := decEq type type'
    have := decEqFields s t
    decidable_of_iff (name = name' ∧ type = type' ∧ optional = optional' ∧ s = t) (by
      simp [and_assoc])

def decEqMembers : (s t : List TypeExpr) → Decidable (s = t)
  | [], [] => isTrue rfl
  | [], _ :: _ => isFalse nofun
  | _ :: _, [] => isFalse nofun
  | a :: s, b :: t =>
    have := decEq a b
    have := decEqMembers s t
    decidable_of_iff (a = b ∧ s = t) (by simp)
end

instance : DecidableEq TypeExpr := decEq

/-! ### The types that analyses name -/

def string : TypeExpr := .primitive "string"
def number : TypeExpr := .primitive "number"
def boolean : TypeExpr := .primitive "boolean"
def null : TypeExpr := .primitive "null"
def undefined : TypeExpr := .primitive "undefined"

/-! ### Views -/

def isUnknown : TypeExpr → Bool
  | .unknown => true
  | _ => false

/-- The fields of a record; other types have none. -/
def fields : TypeExpr → List Field
  | .record fields => fields
  | _ => []

/-- The members of a union; any other type is its own only member. -/
def members : TypeExpr → List TypeExpr
  | .union members => members
  | type => [type]

/-- The field of that name. -/
def field? (type : TypeExpr) (name : String) : Option Field :=
  type.fields.find? (·.name == name)

/-! ### Normal forms -/

/-- The elements of a list without repetitions, in order of first appearance. -/
def distinct {α : Type} [DecidableEq α] (xs : List α) : List α :=
  xs.foldl (fun kept x => if x ∈ kept then kept else kept ++ [x]) []

/-- The union of the types: members of unions are taken one by one, repetitions are dropped, and a
member of which nothing is known leaves nothing known of the whole. -/
def unionOf (types : List TypeExpr) : TypeExpr :=
  let parts := types.flatMap members
  if parts.any isUnknown then .unknown
  else
    match distinct parts with
    | [] => .unknown
    | [type] => type
    | types => .union types

/-- Puts a field into a list that has at most one field of each name, in the place of the field of
its name or else at the end. -/
def putField (fields : List Field) (field : Field) : List Field :=
  if fields.any (·.name == field.name) then
    fields.map fun present => if present.name == field.name then field else present
  else fields ++ [field]

/-- The record of the fields; a later field replaces an earlier one of the same name, in its
place. -/
def recordOf (fields : List Field) : TypeExpr := .record (fields.foldl putField [])

/-! ### Types as text -/

/-- What stands between the angle brackets of a text `wrapper<…>`. -/
def unwrapGeneric? (text wrapper : String) : Option String :=
  let body := (trim text).toList
  let opening := wrapper.toList ++ ['<']
  if opening.isPrefixOf body && body.getLast? == some '>' then
    some (trim (String.ofList (body.drop opening.length).dropLast))
  else none

/-! ### Writing -/

/-- Characters of a type that needs no parentheses in front of brackets. -/
def isPlainChar (c : Char) : Bool :=
  isIdentifierChar c || c == '.' || c == '<' || c == '>' || c == ',' || c == ' '

/-- Can the text of a type stand in front of `[]` as it is? A line feed at the very end does not
count. -/
def isPlain (text : String) : Bool :=
  let characters := dropFinalLineFeed text.toList
  !characters.isEmpty && characters.all isPlainChar

/-- The name of a field, quoted unless it is an identifier. -/
def renderName (name : String) : String :=
  if isIdentifier name then name else "'" ++ name ++ "'"

/-- Types whose text may consist of several alternatives. -/
def mayNeedParentheses : TypeExpr → Bool
  | .union _ => true
  | .named _ => true
  | _ => false

mutual
/-- The text of a type in emitted code. -/
def render : TypeExpr → String
  | .unknown => "unknown"
  | .void => "void"
  | .primitive name => name
  | .array element =>
    let inner := render element
    if mayNeedParentheses element && !isPlain inner then "(" ++ inner ++ ")[]" else inner ++ "[]"
  | .record [] => "\x7b\x7d"
  | .record (field :: fields) =>
    "\x7b " ++ (renderField field ++ (renderFields fields ++ " \x7d"))
  | .union [] => ""
  | .union (member :: members) => render member ++ renderMembers members
  | .named text => text

/-- The text of one field. -/
def renderField : FieldOf TypeExpr → String
  | ⟨name, type, optional⟩ =>
    renderName name ++ ((if optional then "?" else "") ++ (": " ++ render type))

/-- The fields after the first, each behind a semicolon. -/
def renderFields : List (FieldOf TypeExpr) → String
  | [] => ""
  | field :: fields => "; " ++ (renderField field ++ renderFields fields)

/-- The members after the first, each behind a bar. -/
def renderMembers : List TypeExpr → String
  | [] => ""
  | member :: members => " | " ++ (render member ++ renderMembers members)
end

end TypeExpr

end RouteBinder
