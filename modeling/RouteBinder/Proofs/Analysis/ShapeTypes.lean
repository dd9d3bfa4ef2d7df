import RouteBinder.Proofs.Analysis.NestedUnions
import RouteBinder.Proofs.Analysis.RereadTypes
import RouteBinder.Proofs.Analysis.SchemaShapes

/-!
# RouteBinder.Proofs.Analysis.ShapeTypes

**Schemas and annotations agree.** `Shape.IsType` says that a type is written for the values of a shape:
arrays as `T[]`, null as one more member of a union, properties that may be missing with a question mark,
and unions from left to right, each holding the one in front of it. What a schema of a shape is read as is
the same as the type that is written for the shape (`schemaType?_eq_writtenType`).

Any type may be in parentheses. A union in parentheses is one member of the union around it, and one without
them is as many members as it has; since unions are taken apart, both are read as the same.
-/

namespace RouteBinder.Analysis.Schema

open Source Text TypeExpr

/-! ### Unions as they are written -/

/-- The type is the union of the members, from left to right: a union holds the one in front of it. -/
inductive LeftNested : Node → List Node → Prop where
  | lone (type : Node) : LeftNested type [type]
  | more {union left right : Node} {members : List Node} (hkind : union.kind = .unionType)
      (hchildren : union.namedChildren = [left, right]) (hleft : LeftNested left members) :
      LeftNested union (members ++ [right])

/-- The type may be in parentheses. -/
inductive InParens (p : Node → Prop) : Node → Prop where
  | bare {type : Node} (h : p type) : InParens p type
  | parens {type inner : Node} (hkind : type.kind = .parenthesizedType)
      (hinner : type.firstNamed? = some inner) (h : InParens p inner) : InParens p type

/-- The types are what is written for a type in a union: the members of the type, or the type itself. -/
def AreMembersOf (p : Node → Prop) (members : List Node) : Prop :=
  ∃ type, InParens p type ∧ LeftNested type members

/-- The type is a union of the one and, as the last member, the other. -/
def IsEither (p last : Node → Prop) (type : Node) : Prop :=
  ∃ members other, AreMembersOf p members ∧ last other ∧ LeftNested type (members ++ [other])

def IsLiteralType (kind : Kind) (type : Node) : Prop :=
  type.kind = .literalType ∧ type.firstNamed?.map Node.kind = some kind

/-- The type of a value that may be missing is a union with `undefined`. -/
def Included (optional : Bool) (p : Node → Prop) (type : Node) : Prop :=
  if optional then IsEither p (IsLiteralType .undefinedLiteral) type else p type

/-- The member of an object type gives the property a type, after a question mark if it is optional. -/
structure IsProperty (property : Node) (name : String) (optional : Bool) (p : Node → Prop) : Prop where
  kind : property.kind = .propertySignature
  name : ∃ key, property.field? .name = some key ∧ key.kind = .propertyIdentifier ∧ key.text = name
  mark : property.children.any (·.isSymbol "?") = optional
  type : ∃ clause type, property.field? .type = some clause ∧ clause.kind = .typeClause ∧
    clause.firstNamed? = some type ∧ InParens p type

/-! ### Types for shapes -/

def Basic.IsType : Basic → Node → Prop
  | .string, type => type.kind = .predefinedType ∧ type.text = "string"
  | .number, type => type.kind = .predefinedType ∧ type.text = "number"
  | .boolean, type => type.kind = .predefinedType ∧ type.text = "boolean"
  | .any, type => type.kind = .predefinedType ∧ type.text = "any"
  | .unknown, type => type.kind = .predefinedType ∧ type.text = "unknown"
  | .date, type => type.kind = .typeIdentifier ∧ type.text = "Date"
  | .null, type => IsLiteralType .nullLiteral type
  | .undefined, type => IsLiteralType .undefinedLiteral type

namespace Shape

mutual
/-- The type is written for the values of the shape that are there. -/
def IsType : Shape → Node → Prop
  | .basic builder, type => builder.IsType type
  | .array element, type => type.kind = .arrayType ∧ ∃ inner, type.firstNamed? = some inner ∧
      InParens (Included element.isOptional element.IsType) inner
  | .object fields, type => type.kind = .objectType ∧ AreProperties fields type.namedChildren
  | .union first rest, type => ∃ members others,
      AreMembersOf (Included first.isOptional first.IsType) members ∧ AreAlternatives rest others ∧
        LeftNested type (members ++ others)
  | .nullable inner, type => IsEither inner.IsType (IsLiteralType .nullLiteral) type
  | .optional inner, type => inner.IsType type
  | .refined inner, type => inner.IsType type

/-- The members of an object type declare the fields, one by one. -/
def AreProperties : List (String × Shape) → List Node → Prop
  | [], members => members = []
  | (name, shape) :: rest, members => ∃ property others, members = property :: others ∧
      Grammar.IsWord name.toList ∧ IsProperty property name shape.isOptional shape.IsType ∧
        AreProperties rest others

/-- The types are written for the shapes, one behind the other. -/
def AreAlternatives : List Shape → List Node → Prop
  | [], types => types = []
  | shape :: rest, types => ∃ members others, types = members ++ others ∧
      AreMembersOf (Included shape.isOptional shape.IsType) members ∧ AreAlternatives rest others
end

end Shape

/-! ### What the types are -/

section Unions

variable {p last : Node → Prop} {type : Node} {members : List Node} {found final : TypeExpr}

theorem LeftNested.ne_nil (h : LeftNested type members) : members ≠ [] := by
  cases h with
  | lone => exact List.cons_ne_nil _ _
  | more => exact List.concat_ne_nil _ _

theorem normal_of_mem_map {type : TypeExpr} (h : type ∈ members.map writtenType) : Normal type := by
  obtain ⟨member, -, rfl⟩ := List.mem_map.1 h
  exact normal_writtenType member

/-- A nested union is the union of its members. -/
theorem LeftNested.writtenType_eq (h : LeftNested type members) :
    writtenType type = .unionOf (members.map writtenType) := by
  induction h with
  | lone type => exact (unionOf_lone (normal_writtenType type)).symm
  | more hkind hchildren hleft ih =>
      rename_i right members
      have habsorb := unionOf_absorb [] [writtenType right] (fun _ => normal_of_mem_map)
        (List.map_eq_nil_iff.not.2 hleft.ne_nil)
      rw [writtenType_unionType hkind, hchildren, List.map_append, List.map_cons, ih]
      exact habsorb

theorem InParens.writtenType_eq (hfound : ∀ type, p type → writtenType type = found)
    (h : InParens p type) : writtenType type = found := by
  induction h with
  | bare h => exact hfound _ h
  | parens hkind hinner _ ih => rw [writtenType_parenthesizedType hkind hinner, ih]

/-- The members of a type stand for it in a union. -/
theorem AreMembersOf.unionOf_append (hfound : ∀ type, p type → writtenType type = found)
    (h : AreMembersOf p members) (before after : List TypeExpr) :
    unionOf (before ++ members.map writtenType ++ after) = unionOf (before ++ found :: after) := by
  obtain ⟨type, htype, hmembers⟩ := h
  rw [← htype.writtenType_eq hfound, hmembers.writtenType_eq]
  exact (unionOf_absorb before after (fun _ => normal_of_mem_map)
    (List.map_eq_nil_iff.not.2 hmembers.ne_nil)).symm

theorem IsEither.writtenType_eq (hfound : ∀ type, p type → writtenType type = found)
    (hfinal : ∀ type, last type → writtenType type = final) (h : IsEither p last type) :
    writtenType type = .unionOf [found, final] := by
  obtain ⟨members, other, hmembers, hother, hnested⟩ := h
  rw [hnested.writtenType_eq, List.map_append, List.map_singleton, hfinal other hother]
  exact hmembers.unionOf_append hfound [] [final]

theorem IsLiteralType.writtenType_eq {kind : Kind} (h : IsLiteralType kind type) : writtenType type =
    match kind with
    | .nullLiteral => .null
    | .undefinedLiteral => .undefined
    | _ => .named type.text := by
  rw [writtenType.eq_def, h.1]
  dsimp only
  rw [h.2]
  cases kind <;> rfl

theorem Included.writtenType_eq {optional : Bool} (hfound : ∀ type, p type → writtenType type = found)
    (h : Included optional p type) : writtenType type = Parsed.asType ⟨found, optional⟩ := by
  cases optional with
  | false => exact hfound type h
  | true => exact IsEither.writtenType_eq hfound (fun _ h => h.writtenType_eq) h

end Unions

theorem writtenType_predefinedType {type : Node} (hkind : type.kind = .predefinedType) :
    writtenType type =
      match type.text with
      | "unknown" => .unknown
      | "void" => .void
      | name => .primitive name := by
  have hwritten := writtenType.eq_def type
  rw [hkind] at hwritten
  exact hwritten

theorem Basic.IsType.writtenType_eq {builder : Basic} {type : Node} (h : builder.IsType type) :
    writtenType type = builder.type := by
  cases builder with
  | string | number | boolean | any | unknown =>
      rw [writtenType_predefinedType h.1, h.2]
      rfl
  | null => exact IsLiteralType.writtenType_eq h
  | undefined => exact IsLiteralType.writtenType_eq h
  | date =>
      rw [writtenType.eq_def, h.1]
      exact congrArg TypeExpr.named h.2

/-- Quotes are no part of a name. -/
theorem trimQuotes_word {name : String} (h : Grammar.IsWord name.toList) : trimQuotes name = name := by
  obtain ⟨c, more, hname, hstart, hmore⟩ := h
  have hquote : ∀ d, Grammar.isNameChar d = true → (d == '\x27' || d == '\x22') = false := by
    intro d hd
    refine eq_false_of_ne_true fun hquote => ?_
    rcases Bool.or_eq_true_iff.1 hquote with h | h
    · rw [beq_iff_eq.1 h] at hd
      exact absurd hd (by decide)
    · rw [beq_iff_eq.1 h] at hd
      exact absurd hd (by decide)
  have hchars : ∀ d ∈ name.toList, Grammar.isNameChar d = true := by
    rw [hname]
    exact List.forall_mem_cons.2 ⟨(Bool.and_eq_true_iff.1 hstart).1, hmore⟩
  have hsolid : Solid (fun d => d == '\x27' || d == '\x22') name.toList :=
    { ne_nil := hname ▸ List.cons_ne_nil c more
      head := fun d hd => hquote d (hchars d (List.mem_of_mem_head? hd))
      last := fun d hd => hquote d (hchars d (List.mem_of_mem_getLast? hd)) }
  rw [trimQuotes, hsolid.trimWhile_eq, String.ofList_toList]

theorem IsProperty.memberField?_eq {property : Node} {name : String} {optional : Bool} {p : Node → Prop}
    {found : TypeExpr} (hname : Grammar.IsWord name.toList)
    (hfound : ∀ type, p type → writtenType type = found) (h : IsProperty property name optional p) :
    Analysis.memberField? property = some ⟨name, found, optional⟩ := by
  obtain ⟨key, hkey, -, htext⟩ := h.name
  obtain ⟨clause, type, hclause, hkind, htype, hp⟩ := h.type
  have htext : property.fieldText .name = name := by
    rw [Node.fieldText, hkey]
    exact htext
  rw [Analysis.memberField?, h.kind, htext, trimQuotes_word hname, hclause, h.mark]
  show some (⟨name, writtenType clause, optional⟩ : Field) = _
  rw [writtenType_typeClause hkind htype, hp.writtenType_eq hfound]

namespace Shape

mutual
/-- A type that is written for a shape is the type of the shape. -/
theorem writtenType_of_isType : ∀ (shape : Shape) (type : Node), shape.IsType type →
    writtenType type = shape.type
  | .basic builder, type, h => by
      rw [IsType] at h
      exact h.writtenType_eq
  | .array element, type, h => by
      rw [IsType] at h
      obtain ⟨hkind, inner, hinner, h⟩ := h
      have helement := h.writtenType_eq fun type h =>
        Included.writtenType_eq (writtenType_of_isType element) h
      rw [writtenType_arrayType hkind hinner, helement, Shape.type]
  | .object fields, type, h => by
      rw [IsType] at h
      rw [writtenType_objectType h.1, memberFields_of_areProperties fields type.namedChildren h.2,
        Shape.type]
  | .union first rest, type, h => by
      rw [IsType] at h
      obtain ⟨members, others, hfirst, hrest, h⟩ := h
      have hfirst := hfirst.unionOf_append (fun type h =>
        Included.writtenType_eq (writtenType_of_isType first) h) [] (alternatives rest)
      rw [h.writtenType_eq, List.map_append, unionOf_of_areAlternatives rest others hrest, Shape.type]
      exact hfirst
  | .nullable inner, type, h => by
      rw [IsType] at h
      rw [Shape.type]
      exact h.writtenType_eq (writtenType_of_isType inner) fun _ h => h.writtenType_eq
  | .optional inner, type, h => by
      rw [IsType] at h
      rw [Shape.type]
      exact writtenType_of_isType inner type h
  | .refined inner, type, h => by
      rw [IsType] at h
      rw [Shape.type]
      exact writtenType_of_isType inner type h

theorem memberFields_of_areProperties : ∀ (fields : List (String × Shape)) (members : List Node),
    AreProperties fields members → members.filterMap Analysis.memberField? = typedFields fields
  | [], members, h => by
      rw [AreProperties] at h
      rw [h]
      rfl
  | (name, shape) :: rest, members, h => by
      rw [AreProperties] at h
      obtain ⟨property, others, rfl, hname, hproperty, hrest⟩ := h
      have hfield := hproperty.memberField?_eq hname (writtenType_of_isType shape)
      rw [List.filterMap_cons_some hfield, memberFields_of_areProperties rest others hrest, typedFields]

theorem unionOf_of_areAlternatives : ∀ (shapes : List Shape) (types : List Node),
    AreAlternatives shapes types → ∀ before : List TypeExpr,
      unionOf (before ++ types.map writtenType) = unionOf (before ++ alternatives shapes)
  | [], types, h, before => by
      rw [AreAlternatives] at h
      rw [h]
      rfl
  | shape :: rest, types, h, before => by
      rw [AreAlternatives] at h
      obtain ⟨members, others, rfl, hmembers, hrest⟩ := h
      rw [List.map_append, ← List.append_assoc, unionOf_of_areAlternatives rest others hrest]
      exact hmembers.unionOf_append (fun type h =>
        Included.writtenType_eq (writtenType_of_isType shape) h) before (alternatives rest)
end

end Shape

/-! ### Schemas and annotations agree -/

/-- A schema accepts values of the type that is written for its shape. If the value may be missing, the type
has `undefined` as its last member, wherever `.optional()` stands in the chain of modifiers: behind
`.nullable()` or in front of it, the type of a text is `string | null | undefined`. -/
theorem schemaType?_eq_writtenType (scope : Scope) (shape : Shape) (schema type : Node)
    (hschema : shape.IsSchema schema)
    (htype : InParens (Included shape.isOptional shape.IsType) type) :
    schemaType? scope schema = some (writtenType type) := by
  have hwritten := htype.writtenType_eq fun type h =>
    Included.writtenType_eq (Shape.writtenType_of_isType shape) h
  rw [schemaType?, Shape.isRead_of_isSchema shape hschema [], hwritten]
  rfl

/-- A call of a method, written without blanks. -/
def methodCall (place : Place) (object : Node) (method : String) (args : List Node) : Node :=
  .branch place .callExpression
    [.branch { role := some .function } .memberExpression
      [object, .leaf {} .symbol ".", .leaf { role := some .property } .propertyIdentifier method],
      .branch { role := some .arguments } .arguments
        (.leaf {} .symbol "(" :: (args ++ [.leaf {} .symbol ")"]))]

def builderCall (place : Place) (builder : String) (args : List Node) : Node :=
  methodCall place (.leaf { role := some .object } .identifier "z") builder args

section Calls

variable {place : Place} {object : Node} {method : String} {args : List Node}

theorem isMethodCall_methodCall (hobject : object.role = some .object)
    (hargs : args.filter (fun arg => arg.isNamed && arg.kind != .comment) = args) :
    IsMethodCall (methodCall place object method args) object method args := by
  have hfield : (object.role == some .object) = true := beq_iff_eq.2 hobject
  have hproperty : (object.role == some .property) = false := by
    rw [hobject]
    rfl
  have hunwrap : (methodCall place object method args).unwrap? =
      some (methodCall place object method args) := by
    rw [Node.unwrap?_eq]
    rfl
  refine .intro _ _ _ _ hunwrap rfl rfl ?_ rfl List.mem_cons_self rfl ?_
  · simp only [Node.memberParts?, Node.field?, Node.children, List.find?_cons, hfield, hproperty]
    rfl
  · show (args ++ [_]).filter _ = args
    rw [List.filter_append, hargs]
    exact List.append_nil args

theorem isBuilderCall_builderCall
    (hargs : args.filter (fun arg => arg.isNamed && arg.kind != .comment) = args) :
    IsBuilderCall (builderCall place method args) method args :=
  ⟨_, List.mem_cons_self, isMethodCall_methodCall rfl hargs⟩

end Calls

/-! ### A schema and its type -/

mutual
/-- The trees are the same. -/
def isSame : Node → Node → Bool
  | .leaf place kind text, .leaf place' kind' text' => place = place' && kind = kind' && text = text'
  | .branch place kind children, .branch place' kind' children' =>
    place = place' && kind = kind' && areSame children children'
  | _, _ => false

def areSame : List Node → List Node → Bool
  | [], [] => true
  | node :: nodes, node' :: nodes' => isSame node node' && areSame nodes nodes'
  | _, _ => false
end

mutual
theorem eq_of_isSame : ∀ {node node' : Node}, isSame node node' = true → node = node'
  | .leaf _ _ _, .leaf _ _ _, h => by
      simp only [isSame, Bool.and_eq_true, decide_eq_true_eq] at h
      rw [h.1.1, h.1.2, h.2]
  | .branch _ _ _, .branch _ _ _, h => by
      simp only [isSame, Bool.and_eq_true, decide_eq_true_eq] at h
      rw [h.1.1, h.1.2, eq_of_areSame h.2]
  | .leaf _ _ _, .branch _ _ _, h => by simp [isSame] at h
  | .branch _ _ _, .leaf _ _ _, h => by simp [isSame] at h

theorem eq_of_areSame : ∀ {nodes nodes' : List Node}, areSame nodes nodes' = true → nodes = nodes'
  | [], [], _ => rfl
  | _ :: _, _ :: _, h => by
      simp only [areSame, Bool.and_eq_true] at h
      rw [eq_of_isSame h.1, eq_of_areSame h.2]
  | [], _ :: _, h => by simp [areSame] at h
  | _ :: _, [], h => by simp [areSame] at h
end

/-- A schema of a field that may be null or missing, and so may its texts. -/
def tagsSource : String :=
  "schema=z.object(\x7btags:z.array(z.string().nullable()).optional().nullable()\x7d).optional()"

/-- The type that is written for it. -/
def tagsTypeSource : String := "type T=\x7btags?:(string|null)[]|null\x7d|undefined"

/-- `tags:z.array(z.string().nullable()).optional().nullable()` -/
def tagsPair : Node :=
  let text := methodCall {} (builderCall { role := some .object } "string" []) "nullable" []
  let texts := builderCall { role := some .object } "array" [text]
  .branch {} .pair [.leaf { role := some .key } .propertyIdentifier "tags", .leaf {} .symbol ":",
    methodCall { role := some .value } (methodCall { role := some .object } texts "optional" [])
      "nullable" []]

/-- The value that is assigned in `tagsSource`. -/
def tagsSchema : Node :=
  let object := Node.branch {} .object [.leaf {} .symbol "\x7b", tagsPair, .leaf {} .symbol "\x7d"]
  methodCall { role := some .right } (builderCall { role := some .object } "object" [object]) "optional" []

def nullType : Node := .branch {} .literalType [.leaf {} .nullLiteral "null"]

/-- `(string|null)[]` -/
def tagsArray : Node :=
  let text := Node.branch {} .unionType [.leaf {} .predefinedType "string", .leaf {} .symbol "|", nullType]
  let element := Node.branch {} .parenthesizedType [.leaf {} .symbol "(", text, .leaf {} .symbol ")"]
  .branch {} .arrayType [element, .leaf {} .symbol "[", .leaf {} .symbol "]"]

/-- `{tags?:(string|null)[]|null}` -/
def tagsRecord : Node :=
  let choice := Node.branch {} .unionType [tagsArray, .leaf {} .symbol "|", nullType]
  let property := Node.branch {} .propertySignature
    [.leaf { role := some .name } .propertyIdentifier "tags", .leaf {} .symbol "?",
      .branch { role := some .type } .typeClause [.leaf {} .symbol ":", choice]]
  .branch {} .objectType [.leaf {} .symbol "\x7b", property, .leaf {} .symbol "\x7d"]

/-- The type that is declared in `tagsTypeSource`. -/
def tagsType : Node :=
  let missing := Node.branch {} .literalType [.leaf {} .undefinedLiteral "undefined"]
  .branch { role := some .value } .unionType [tagsRecord, .leaf {} .symbol "|", missing]

def tagsShape : Shape :=
  .optional (.object [("tags", .nullable (.optional (.array (.nullable (.basic .string)))))])

/-- The schema in a source that assigns it. -/
def assignedSchema? (source : String) : Option Node := do
  let program ← Grammar.parse? source
  let assignment ← (← program.firstNamed?).firstNamed?
  assignment.field? .right

set_option maxRecDepth 1000000 in
theorem assignedSchema?_tagsSource : assignedSchema? tagsSource = some tagsSchema := by
  have hcheck : (assignedSchema? tagsSource).any (isSame tagsSchema) = true := by decide +kernel
  obtain ⟨schema, hschema, hsame⟩ := (Option.any_eq_true _ _).1 hcheck
  rw [hschema, eq_of_isSame hsame]

set_option maxRecDepth 1000000 in
theorem aliasNode?_tagsTypeSource : aliasNode? tagsTypeSource = some tagsType := by
  have hcheck : (aliasNode? tagsTypeSource).any (isSame tagsType) = true := by decide +kernel
  obtain ⟨type, htype, hsame⟩ := (Option.any_eq_true _ _).1 hcheck
  rw [htype, eq_of_isSame hsame]

theorem isSchema_tagsSchema : tagsShape.IsSchema tagsSchema := by
  have htext : (Shape.nullable (.basic .string)).IsSchema
      (methodCall {} (builderCall { role := some .object } "string" []) "nullable" []) :=
    ⟨_, _, isMethodCall_methodCall rfl rfl, _, isBuilderCall_builderCall rfl⟩
  have hmembers : Shape.AreMembers
      [("tags", .nullable (.optional (.array (.nullable (.basic .string)))))] [tagsPair] :=
    ⟨_, _, _, rfl, by decide, ⟨rfl, ⟨_, rfl, rfl, rfl⟩, rfl⟩,
      ⟨_, _, isMethodCall_methodCall rfl rfl, _, _, isMethodCall_methodCall rfl rfl,
        .inl ⟨_, _, isBuilderCall_builderCall rfl, htext⟩⟩, rfl⟩
  refine ⟨_, _, isMethodCall_methodCall rfl rfl, _, _, [tagsPair], isBuilderCall_builderCall rfl, ?_,
    hmembers⟩
  rw [objectMembers?, Node.unwrap?_eq]
  rfl

theorem isType_tagsType : InParens (Included tagsShape.isOptional tagsShape.IsType) tagsType := by
  have harray : (Shape.array (.nullable (.basic .string))).IsType tagsArray :=
    ⟨rfl, _, rfl, .parens rfl rfl
      (.bare ⟨_, _, ⟨_, .bare ⟨rfl, rfl⟩, .lone _⟩, ⟨rfl, rfl⟩, .more rfl rfl (.lone _)⟩)⟩
  have hchoice : IsEither (Shape.optional (.array (.nullable (.basic .string)))).IsType
      (IsLiteralType .nullLiteral)
      (.branch {} .unionType [tagsArray, .leaf {} .symbol "|", nullType]) :=
    ⟨_, _, ⟨_, .bare harray, .lone _⟩, ⟨rfl, rfl⟩, .more rfl rfl (.lone _)⟩
  have hrecord : (Shape.object
      [("tags", .nullable (.optional (.array (.nullable (.basic .string)))))]).IsType tagsRecord :=
    ⟨rfl, _, _, rfl, by decide, ⟨rfl, ⟨_, rfl, rfl, rfl⟩, rfl, _, _, rfl, rfl, rfl, .bare hchoice⟩, rfl⟩
  exact .bare ⟨_, _, ⟨_, .bare hrecord, .lone _⟩, ⟨rfl, rfl⟩, .more rfl rfl (.lone _)⟩

/-- The property may be missing although `.nullable()` stands behind `.optional()`. -/
theorem schemaType?_eq_writtenType_tags : ∃ schema type, assignedSchema? tagsSource = some schema ∧
    aliasNode? tagsTypeSource = some type ∧ tagsShape.IsSchema schema ∧
    InParens (Included tagsShape.isOptional tagsShape.IsType) type ∧
    schemaType? {} schema = some (writtenType type) :=
  ⟨tagsSchema, tagsType, assignedSchema?_tagsSource, aliasNode?_tagsTypeSource, isSchema_tagsSchema,
    isType_tagsType, schemaType?_eq_writtenType {} tagsShape _ _ isSchema_tagsSchema isType_tagsType⟩

end RouteBinder.Analysis.Schema
