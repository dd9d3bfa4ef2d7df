import RouteBinder.Source.Node
import RouteBinder.TypeExpr

/-!
# RouteBinder.Analysis.WrittenType

**Types written in annotations.** The type syntax that has a counterpart among type expressions is
taken apart; all other types are kept as their text.
-/

namespace RouteBinder.Analysis

open Source

/-- The arguments of a generic type. -/
def typeArguments (type : Node) : List Node :=
  match (type.namedChildren.find? (·.kind == .typeArguments)) with
  | some list => list.namedChildren
  | none => []

/-- The name that a generic type applies. -/
def genericName (type : Node) : String :=
  match type.field? .name with
  | some name => name.text
  | none => (type.firstNamed?.map Node.text).getD ""

/-- The type expression for a type node or an annotation. -/
def writtenType (node : Node) : TypeExpr :=
  match node.kind with
  | .typeClause | .parenthesizedType =>
    match _h : node.firstNamed? with
    | some type => writtenType type
    | none => .unknown
  | .predefinedType =>
    match node.text with
    | "unknown" => .unknown
    | "void" => .void
    | name => .primitive name
  | .arrayType =>
    match _h : node.firstNamed? with
    | some type => .array (writtenType type)
    | none => .array .unknown
  | .unionType =>
    .unionOf (node.namedChildren.attach.map fun ⟨type, _h⟩ => writtenType type)
  | .objectType =>
    .record (node.namedChildren.attach.filterMap fun ⟨member, _h⟩ =>
      if member.kind == .propertySignature then
        let type :=
          match _h' : member.field? .type with
          | some type => writtenType type
          | none => .unknown
        some ⟨Text.trimQuotes (member.fieldText .name), type, member.children.any (·.isSymbol "?")⟩
      else none)
  | .literalType =>
    match node.firstNamed?.map Node.kind with
    | some .nullLiteral => .null
    | some .undefinedLiteral => .undefined
    | _ => .named node.text
  | .genericType =>
    match _h : typeArguments node with
    | [element] => if genericName node == "Array" then .array (writtenType element)
      else .named node.text
    | _ => .named node.text
  | _ => .named node.text
termination_by node.size
decreasing_by
  · exact Node.size_firstNamed?_lt _h
  · exact Node.size_firstNamed?_lt _h
  · exact Node.size_namedChild_lt _h
  · have := Node.size_namedChild_lt _h
    have := Node.size_field?_lt _h'
    omega
  · unfold typeArguments at _h
    split at _h
    · rename_i list found
      have := Node.size_namedChild_lt (List.mem_of_find?_eq_some found)
      have : element ∈ list.namedChildren := by rw [_h]; exact List.mem_singleton_self _
      have := Node.size_namedChild_lt this
      omega
    · simp at _h

/-- The type of an annotation that may be missing. -/
def writtenTypeOf (node? : Option Node) : TypeExpr :=
  (node?.map writtenType).getD .unknown

end RouteBinder.Analysis
