import RouteBinder.Proofs.Analysis.NormalTypes
import RouteBinder.Proofs.Analysis.SchemaRecursion
import RouteBinder.Proofs.Grammar.Tokens
import RouteBinder.Proofs.Source.Spliced

/-!
# RouteBinder.Proofs.Analysis.SchemaShapes

**Schemas of one shape.** A `Shape` is what a schema and a written type can have in common: basic types,
arrays, objects, unions, null, and values that may be missing. `Shape.IsSchema` says that an expression
builds a schema of the shape. Whatever names are being followed, such an expression is read as the type of
the shape (`isRead_of_isSchema`).

That a value may be missing is kept apart from its type: `isOptional` is passed on by `.nullable()` and by
refinements, and only where the value stands for itself, as an element, an alternative or the whole schema,
does the type take in `undefined`. A field of an object keeps it as a mark of its own.
-/

namespace RouteBinder.Analysis.Schema

open Source Text

/-! ### Shapes -/

/-- Builders whose schemas have no parts. -/
inductive Basic where
  | string | number | boolean | null | undefined | any | unknown | date
  deriving DecidableEq, Repr

def Basic.builder : Basic → String
  | .string => "string"
  | .number => "number"
  | .boolean => "boolean"
  | .null => "null"
  | .undefined => "undefined"
  | .any => "any"
  | .unknown => "unknown"
  | .date => "date"

def Basic.type : Basic → TypeExpr
  | .string => .string
  | .number => .number
  | .boolean => .boolean
  | .null => .null
  | .undefined => .undefined
  | .any => .primitive "any"
  | .unknown => .unknown
  | .date => .named "Date"

inductive Shape where
  | basic (basic : Basic)
  | array (element : Shape)
  | object (fields : List (String × Shape))
  | union (first : Shape) (rest : List Shape)
  | nullable (inner : Shape)
  | optional (inner : Shape)
  | refined (inner : Shape)

namespace Shape

/-- May the value be missing? -/
def isOptional : Shape → Bool
  | .optional _ => true
  | .nullable inner => inner.isOptional
  | .refined inner => inner.isOptional
  | _ => false

mutual
/-- The type of a value that is there. -/
def type : Shape → TypeExpr
  | .basic builder => builder.type
  | .array element => .array (Parsed.asType ⟨element.type, element.isOptional⟩)
  | .object fields => .record (typedFields fields)
  | .union first rest => .unionOf (Parsed.asType ⟨first.type, first.isOptional⟩ :: alternatives rest)
  | .nullable inner => .unionOf [inner.type, .null]
  | .optional inner => inner.type
  | .refined inner => inner.type

def typedFields : List (String × Shape) → List Field
  | [] => []
  | (name, shape) :: rest => ⟨name, shape.type, shape.isOptional⟩ :: typedFields rest

def alternatives : List Shape → List TypeExpr
  | [] => []
  | shape :: rest => Parsed.asType ⟨shape.type, shape.isOptional⟩ :: alternatives rest
end

end Shape

/-! ### Schema expressions -/

/-- The node is a call of a method of the object, maybe under wrappers. -/
inductive IsMethodCall (node object : Node) (method : String) (args : List Node) : Prop where
  | intro (call callee list opening : Node) (hcall : node.unwrap? = some call)
      (hkind : call.kind = .callExpression) (hcallee : call.field? .function = some callee)
      (hparts : callee.memberParts? = some (object, method))
      (hlist : call.field? .arguments = some list) (hopening : opening ∈ list.children)
      (hmark : opening.isSymbol "(" = true) (hargs : list.namedChildren = args)

/-- The node is a call of a builder. -/
def IsBuilderCall (node : Node) (builder : String) (args : List Node) : Prop :=
  ∃ object, object.text ∈ namespaces ∧ IsMethodCall node object builder args

/-- The member of an object literal gives the key a value. -/
structure IsPair (member : Node) (name : String) (value : Node) : Prop where
  kind : member.kind = .pair
  key : ∃ key, member.field? .key = some key ∧ key.kind = .propertyIdentifier ∧ key.text = name
  value : member.field? .value = some value

namespace Shape

mutual
/-- The expression builds a schema of the shape. -/
def IsSchema : Shape → Node → Prop
  | .basic builder, node => ∃ args, IsBuilderCall node builder.builder args
  | .array element, node =>
    (∃ first rest, IsBuilderCall node "array" (first :: rest) ∧ element.IsSchema first) ∨
      ∃ object args, IsMethodCall node object "array" args ∧ element.IsSchema object
  | .object fields, node => ∃ first rest members, IsBuilderCall node "object" (first :: rest) ∧
      objectMembers? first = some members ∧ AreMembers fields members
  | .union first rest, node => ∃ list option options, IsBuilderCall node "union" [list] ∧
      arrayElements? list = some (option :: options) ∧ first.IsSchema option ∧ AreOptions rest options
  | .nullable inner, node =>
    ∃ object args, IsMethodCall node object "nullable" args ∧ inner.IsSchema object
  | .optional inner, node =>
    ∃ object args, IsMethodCall node object "optional" args ∧ inner.IsSchema object
  | .refined inner, node => ∃ object method args, method ∈ refinements ∧
      IsMethodCall node object method args ∧ inner.IsSchema object

/-- The members of an object literal describe the fields, one by one. -/
def AreMembers : List (String × Shape) → List Node → Prop
  | [], members => members = []
  | (name, shape) :: rest, members => ∃ member others value, members = member :: others ∧
      Grammar.IsWord name.toList ∧ IsPair member name value ∧ shape.IsSchema value ∧
        AreMembers rest others

def AreOptions : List Shape → List Node → Prop
  | [], options => options = []
  | shape :: rest, options => ∃ option others, options = option :: others ∧
      shape.IsSchema option ∧ AreOptions rest others
end

end Shape

/-! ### Calls -/

section Calls

variable {scope : Scope} {following : List String} {node object : Node} {method : String}
  {args : List Node}

/-- A call is not read as the name of a namespace. -/
theorem IsMethodCall.not_mem_namespaces (h : IsMethodCall node object method args) :
    node.text ∉ namespaces := by
  obtain ⟨call, callee, list, opening, hcall, -, -, -, hlist, hopening, hmark, -⟩ := h
  have hinside : opening.AtOrInside node :=
    ((Node.Inside.of_mem hopening).trans (Node.inside_of_field? hlist)).atOrInside.trans
      (Node.atOrInside_of_unwrap? hcall)
  obtain ⟨place, rfl⟩ := Node.eq_leaf_of_isSymbol hmark
  have hsymbol : '(' ∈ "(".toList := by decide
  have hparenthesis : '(' ∈ node.text.toList := hinside.infix_text.subset hsymbol
  have hnone : ∀ name ∈ namespaces, '(' ∉ name.toList := by decide
  exact fun hmem => hnone _ hmem hparenthesis

theorem IsMethodCall.expressionRule_eq {m : Type → Type} [Monad m] {self : Node → m (Option Parsed)}
    {follow : String → m (Option Parsed)} (h : IsMethodCall node object method args) :
    expressionRule self follow node =
      if namespaces.contains object.text then builder self follow method args
      else do
        match ← self object with
        | some inner => modifier self follow inner method args
        | none => return none := by
  obtain ⟨call, callee, list, opening, hcall, hkind, hcallee, hparts, hlist, -, -, hargs⟩ := h
  have hargs : call.callArguments = args := by
    rw [Node.callArguments, hlist]
    exact hargs
  rw [expressionRule, hcall]
  dsimp only
  rw [hkind]
  dsimp only
  rw [hcallee, Option.bind_some, hparts]
  dsimp only
  subst hargs
  rfl

theorem IsBuilderCall.interpret_eq_builder (h : IsBuilderCall node method args) :
    interpret scope following node =
      (builder (m := Id) (interpret scope following) (followName scope following (interpret scope))
        method args).run := by
  obtain ⟨object, hobject, h⟩ := h
  rw [interpret_eq, h.expressionRule_eq, if_pos (List.contains_iff_mem.2 hobject)]

theorem IsMethodCall.interpret_eq_modifier (h : IsMethodCall node object method args)
    (hobject : object.text ∉ namespaces) {inner : Parsed}
    (hinner : interpret scope following object = some inner) :
    interpret scope following node =
      (modifier (m := Id) (interpret scope following) (followName scope following (interpret scope))
        inner method args).run := by
  rw [interpret_eq, h.expressionRule_eq, if_neg (mt List.contains_iff_mem.1 hobject)]
  show Id.run (match interpret scope following object with
    | some inner => _
    | none => _) = _
  rw [hinner]

end Calls

/-! ### Builders and modifiers -/

section Builders

variable {self : Node → Id (Option Parsed)} {follow : String → Id (Option Parsed)} {node first : Node}
  {rest args : List Node} {method : String} {inner : Parsed}

theorem run_elementType : (elementType self node).run =
    ((self node).run.map Parsed.asType).getD .unknown := rfl

theorem run_builder_array : (builder self follow "array" (first :: rest)).run =
    some { type := .array (elementType self first).run } := rfl

theorem run_builder_object {members : List Node} (h : objectMembers? first = some members) :
    (builder self follow "object" (first :: rest)).run =
      some ⟨.record ((members.map fun member => (memberField? self follow member).run).filterMap id),
        false⟩ := by
  have hshape : (shapeType self follow first).run =
      .record ((members.map fun member => (memberField? self follow member).run).filterMap id) := by
    rw [shapeType, h, ← List.idRun_mapM]
    rfl
  rw [← hshape]
  rfl

theorem builder_union : builder self follow "union" [node] =
    match arrayElements? node with
    | some options => do
      let types ← options.mapM (elementType self)
      return some { type := .unionOf types }
    | none => return none := rfl

theorem run_builder_union {options : List Node} (h : arrayElements? node = some options) :
    (builder self follow "union" [node]).run =
      some { type := .unionOf (options.map fun option => (elementType self option).run) } := by
  rw [builder_union, h, ← List.idRun_mapM]
  rfl

theorem run_memberField?_pair {name : String} {value : Node} (h : IsPair node name value) :
    (memberField? self follow node).run = some (schemaField name (self value).run) := by
  obtain ⟨key, hkey, hkind, htext⟩ := h.key
  have hname : key.keyName = name := by
    have hvalue : key.stringValue? = none := by
      simp [Node.stringValue?, Node.unwrap?_eq, hkind, Kind.isWrapper]
    rw [Node.keyName, hvalue]
    exact htext
  rw [memberField?, h.kind]
  dsimp only
  rw [hkey, h.value, Option.map_some, Option.getD_some, hname]
  rfl

theorem run_modifier_array : (modifier self follow inner "array" args).run =
    some { type := .array inner.asType } := rfl

theorem run_modifier_nullable : (modifier self follow inner "nullable" args).run =
    some { inner with type := .unionOf [inner.type, .null] } := rfl

theorem run_modifier_optional : (modifier self follow inner "optional" args).run =
    some { inner with optional := true } := rfl

theorem run_modifier_refinement (h : method ∈ refinements) :
    (modifier self follow inner method args).run = some inner := by
  unfold modifier
  rw [if_pos (List.contains_iff_mem.2 h)]
  rfl

end Builders

namespace Shape

/-! ### What schemas are read as -/

variable {scope : Scope} {following : List String} {node object : Node} {method : String}
  {args : List Node} {shape : Shape}

theorem isMethodCall_of_isSchema (h : shape.IsSchema node) :
    ∃ object method args, IsMethodCall node object method args := by
  cases shape with
  | basic =>
      rw [IsSchema] at h
      obtain ⟨_, _, _, h⟩ := h
      exact ⟨_, _, _, h⟩
  | array =>
      rw [IsSchema] at h
      rcases h with ⟨_, _, ⟨_, _, h⟩, _⟩ | ⟨_, _, h, _⟩
      · exact ⟨_, _, _, h⟩
      · exact ⟨_, _, _, h⟩
  | object | union =>
      rw [IsSchema] at h
      obtain ⟨_, _, _, ⟨_, _, h⟩, _⟩ := h
      exact ⟨_, _, _, h⟩
  | nullable | optional =>
      rw [IsSchema] at h
      obtain ⟨_, _, h, _⟩ := h
      exact ⟨_, _, _, h⟩
  | refined =>
      rw [IsSchema] at h
      obtain ⟨_, _, _, _, h, _⟩ := h
      exact ⟨_, _, _, h⟩

/-- The expression is read as the type of the shape, whatever names are being followed. -/
def IsRead (scope : Scope) (shape : Shape) (node : Node) : Prop :=
  ∀ following, interpret scope following node = some ⟨shape.type, shape.isOptional⟩

theorem IsRead.elementType_eq (h : IsRead scope shape node) :
    (elementType (m := Id) (interpret scope following) node).run =
      Parsed.asType ⟨shape.type, shape.isOptional⟩ := by
  rw [run_elementType, h following]
  rfl

theorem IsRead.modifier_eq (h : IsRead scope shape object) (hobject : shape.IsSchema object)
    (hcall : IsMethodCall node object method args) :
    interpret scope following node =
      (modifier (m := Id) (interpret scope following) (followName scope following (interpret scope))
        ⟨shape.type, shape.isOptional⟩ method args).run := by
  obtain ⟨_, _, _, hnested⟩ := isMethodCall_of_isSchema hobject
  exact hcall.interpret_eq_modifier hnested.not_mem_namespaces (h following)

mutual
/-- A schema of a shape is read as the type of the shape. -/
theorem isRead_of_isSchema : ∀ (shape : Shape) {node : Node}, shape.IsSchema node →
    IsRead scope shape node
  | .basic builder, node, h, following => by
      rw [IsSchema] at h
      obtain ⟨args, h⟩ := h
      rw [h.interpret_eq_builder]
      cases builder <;> rfl
  | .array element, node, h, following => by
      rw [IsSchema] at h
      rcases h with ⟨first, rest, h, helement⟩ | ⟨object, args, h, helement⟩
      · have hread := isRead_of_isSchema element helement
        rw [h.interpret_eq_builder, run_builder_array, hread.elementType_eq]
        rfl
      · have hread := isRead_of_isSchema element helement
        rw [hread.modifier_eq helement h, run_modifier_array]
        rfl
  | .object fields, node, h, following => by
      rw [IsSchema] at h
      obtain ⟨first, rest, members, h, hmembers, hfields⟩ := h
      rw [h.interpret_eq_builder, run_builder_object hmembers,
        memberFields_of_areMembers fields hfields following]
      rfl
  | .union first rest, node, h, following => by
      rw [IsSchema] at h
      obtain ⟨list, option, options, h, helements, hfirst, hrest⟩ := h
      have hread := isRead_of_isSchema first hfirst
      rw [h.interpret_eq_builder, run_builder_union helements, List.map_cons, hread.elementType_eq,
        elementTypes_of_areOptions rest hrest following]
      rfl
  | .nullable inner, node, h, following => by
      rw [IsSchema] at h
      obtain ⟨object, args, h, hinner⟩ := h
      rw [(isRead_of_isSchema inner hinner).modifier_eq hinner h, run_modifier_nullable]
      rfl
  | .optional inner, node, h, following => by
      rw [IsSchema] at h
      obtain ⟨object, args, h, hinner⟩ := h
      rw [(isRead_of_isSchema inner hinner).modifier_eq hinner h, run_modifier_optional]
      rfl
  | .refined inner, node, h, following => by
      rw [IsSchema] at h
      obtain ⟨object, method, args, hmethod, h, hinner⟩ := h
      rw [(isRead_of_isSchema inner hinner).modifier_eq hinner h, run_modifier_refinement hmethod]
      rfl

theorem memberFields_of_areMembers : ∀ (fields : List (String × Shape)) {members : List Node},
    AreMembers fields members → ∀ following : List String,
    ((members.map fun member => (memberField? (m := Id) (interpret scope following)
      (followName scope following (interpret scope)) member).run).filterMap id) = typedFields fields
  | [], members, h, _ => by
      rw [AreMembers] at h
      rw [h]
      rfl
  | (name, shape) :: rest, members, h, following => by
      rw [AreMembers] at h
      obtain ⟨member, others, value, rfl, -, hpair, hvalue, hrest⟩ := h
      have hread := isRead_of_isSchema shape hvalue following
      rw [List.map_cons, run_memberField?_pair hpair]
      show schemaField name (interpret scope following value) :: List.filterMap id _ = _
      rw [memberFields_of_areMembers rest hrest following, hread]
      rfl

theorem elementTypes_of_areOptions : ∀ (shapes : List Shape) {options : List Node},
    AreOptions shapes options → ∀ following : List String,
    (options.map fun option => (elementType (m := Id) (interpret scope following) option).run) =
      alternatives shapes
  | [], options, h, _ => by
      rw [AreOptions] at h
      rw [h]
      rfl
  | shape :: rest, options, h, following => by
      rw [AreOptions] at h
      obtain ⟨option, others, rfl, hshape, hrest⟩ := h
      rw [List.map_cons, (isRead_of_isSchema shape hshape).elementType_eq,
        elementTypes_of_areOptions rest hrest following, alternatives]
end

end Shape

end RouteBinder.Analysis.Schema
