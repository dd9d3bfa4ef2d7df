import RouteBinder.Proofs.Analysis.DestructuredFields
import RouteBinder.Proofs.Analysis.Renderings
import RouteBinder.Proofs.Analysis.VoidInputs
import RouteBinder.Proofs.Emit.CopiedLiterals
import RouteBinder.Proofs.Grammar.RequotedLiterals

/-!
# RouteBinder.Proofs.Analysis.CopiedTexts

**Literals and names that types copy.** What stands between the quotes of a literal gets into a type in four
ways: as a literal of its own, for `z.literal` and for an element of `z.enum`, and as the name of a field, for a
key of a shape and for a property that is read with brackets. It is put between single quotes with its escapes,
and apostrophes get a backslash in literals only.

So the copy denotes what the literal does in all but a few cases (`copied_texts_iff`): an apostrophe that
is escaped in the route file is not any more in a literal, and one that is not closes the quotes of a name.
-/

namespace RouteBinder.TypeExpr

open Text Grammar

variable {types : List TypeExpr} {type : TypeExpr} {fields : List Field} {name literal : String}
  {value : List Nat} {starts continues : Char → Bool}

/-! ### Places in the text of a type -/

theorem renderMembers_eq (first : TypeExpr) (members : List TypeExpr) :
    render first ++ renderMembers members =
      String.intercalate " | " ((first :: members).map render) := by
  induction members generalizing first with
  | nil => simp [renderMembers]
  | cons second members ih =>
      rw [renderMembers, ih second, List.map_cons, List.map_cons, List.map_cons,
        String.intercalate_cons_cons, String.append_assoc]

/-- The members of a union stand between bars; any other type is its own only member. -/
theorem render_eq_intercalate (type : TypeExpr) :
    type.render = String.intercalate " | " (type.members.map render) := by
  cases type with
  | union members =>
      cases members with
      | nil => rfl
      | cons first members => rw [render, renderMembers_eq, TypeExpr.members]
  | _ => exact String.intercalate_singleton.symm

theorem renderFields_eq (first : Field) (fields : List Field) :
    renderField first ++ renderFields fields =
      String.intercalate "; " ((first :: fields).map renderField) := by
  induction fields generalizing first with
  | nil => simp [renderFields]
  | cons second fields ih =>
      rw [renderFields, ih second, List.map_cons, List.map_cons, List.map_cons,
        String.intercalate_cons_cons, String.append_assoc]

/-- The fields of a record stand between semicolons. -/
theorem render_record (hne : fields ≠ []) : render (.record fields) =
    "\x7b " ++ String.intercalate "; " (fields.map renderField) ++ " \x7d" := by
  obtain ⟨first, fields, rfl⟩ := List.exists_cons_of_ne_nil hne
  rw [render, ← renderFields_eq]
  simp only [String.append_assoc]

theorem renderField_eq (field : Field) : renderField field =
    renderName field.name ++ (if field.optional then "?" else "") ++ ": " ++ field.type.render := by
  rw [renderField]
  simp only [String.append_assoc]

/-- A type that is no union stands in a union of types if something is known of all of them. -/
theorem mem_members_unionOf_iff (h : ∀ type ∈ types, Normalized type) (htype : type ∈ types)
    (hself : type.members = [type]) (hne : type ≠ .unknown) :
    type ∈ (unionOf types).members ↔ .unknown ∉ types := by
  have htypes := List.ne_nil_of_mem htype
  have hunknown := unionOf_eq_unknown_iff h htypes
  constructor
  · intro hmem hunk
    rw [hunknown.2 hunk] at hmem
    exact hne (List.mem_singleton.1 hmem)
  · intro hknown
    have hany : (types.flatMap TypeExpr.members).any isUnknown = false := by
      rw [← Bool.not_eq_true]
      exact fun hany => hknown (hunknown.1 (unionOf_of_unknown hany))
    rw [members_unionOf h htypes hany, mem_distinct, List.mem_flatMap]
    exact ⟨type, htype, hself ▸ List.mem_singleton_self type⟩

/-! ### Names of fields -/

/-- The name is written without quotes and can be, or nothing in it needs a backslash between quotes. -/
def Keeps (starts continues : Char → Bool) (name : String) : Prop :=
  if isIdentifier name then
    name.toList.head?.any starts = true ∧ name.toList.tail.all continues = true
  else ¬ Exposed name.toList

instance (starts continues : Char → Bool) (name : String) : Decidable (Keeps starts continues name) :=
  inferInstanceAs (Decidable (if isIdentifier name then _ else _))

theorem nameUnits?_quoted (name : String) :
    nameUnits? starts continues ("'" ++ name ++ "'") = contentUnits? '\x27' 0 name.toList := by
  have hquoted := Analysis.toList_quoted name
  rw [nameUnits?, hquoted]
  exact literalUnits?_of_toList hquoted

/-- There are no quotes, backslashes and carriage returns in identifiers. -/
theorem exists_of_isIdentifier (h : isIdentifier name = true) :
    ∃ first rest, name.toList = first :: rest ∧ '\x27' ∉ name.toList ∧ '\\' ∉ name.toList ∧
      '\r' ∉ name.toList := by
  have hline : ∃ feed, name.toList = dropFinalLineFeed name.toList ++ feed ∧ ∀ c ∈ feed, c = '\n' := by
    rw [dropFinalLineFeed]
    split
    · rename_i hfeed
      obtain ⟨front, hfront⟩ := List.getLast?_eq_some_iff.1 (beq_iff_eq.1 hfeed)
      exact ⟨['\n'], by rw [hfront, List.dropLast_concat], by simp⟩
    · exact ⟨[], (List.append_nil _).symm, by simp⟩
  obtain ⟨feed, hname, hfeed⟩ := hline
  rw [isIdentifier] at h
  split at h
  · cases h
  · rename_i first rest hkept
    rw [Bool.and_eq_true, List.all_eq_true] at h
    rw [hkept, List.cons_append] at hname
    have hnot {c : Char} (hstart : isIdentifierStart c = false) (hchar : isIdentifierChar c = false)
        (hnotFeed : c ≠ '\n') : c ∉ name.toList := by
      rw [hname, List.mem_cons, List.mem_append]
      rintro (rfl | hmem | hmem)
      · exact Bool.false_ne_true (hstart.symm.trans h.1)
      · exact Bool.false_ne_true (hchar.symm.trans (h.2 c hmem))
      · exact hnotFeed (hfeed c hmem)
    exact ⟨first, rest ++ feed, hname, hnot rfl rfl (by decide), hnot rfl rfl (by decide),
      hnot rfl rfl (by decide)⟩

theorem nameUnits?_identifier (h : literalUnits? literal = some value)
    (hidentifier : isIdentifier (inside literal) = true) :
    nameUnits? starts continues (inside literal) = some value ↔
      (inside literal).toList.head?.any starts = true ∧
        (inside literal).toList.tail.all continues = true := by
  obtain ⟨first, rest, hname, hquote, hbackslash, hreturn⟩ := exists_of_isIdentifier hidentifier
  obtain ⟨quote, -, hcontent⟩ := exists_contentUnits? h
  have hvalue := contentUnits?_eq_codeUnits hbackslash hreturn hcontent
  have hfirst : (first == '\x27') = false := by
    rw [hname, List.mem_cons, not_or] at hquote
    simpa using Ne.symm hquote.1
  rw [nameUnits?, hvalue, hname]
  simp [hfirst]

/-- What the name of a field denotes when it is copied from a literal. -/
theorem nameUnits?_renderName (h : literalUnits? literal = some value) :
    nameUnits? starts continues (renderName (inside literal)) = some value ↔
      Keeps starts continues (inside literal) := by
  rw [renderName, Keeps]
  split
  · rename_i hidentifier
    exact nameUnits?_identifier h hidentifier
  · obtain ⟨quote, -, hcontent⟩ := exists_contentUnits? h
    rw [nameUnits?_quoted, (content_of_contentUnits? hcontent).contentUnits?_eq]
    split <;> simp [*]

end RouteBinder.TypeExpr

namespace RouteBinder.Analysis

open Source Text TypeExpr Usage Schema
open Grammar (Guarded literalUnits? nameUnits? contentUnits? exists_contentUnits? content_of_contentUnits?)

/-! ### Places of literals -/

/-- The expression is a call of a builder, maybe under wrappers. -/
def CallsBuilder (node : Node) (method : String) (args : List Node) : Prop :=
  ∃ object, object.text ∈ namespaces ∧ CallsMethod node object method args

/-- The expression is a string, maybe under wrappers. -/
structure WritesString (node literal : Node) : Prop where
  unwrap_eq : node.unwrap? = some literal
  kind : literal.kind = .string
  quotes : literal.text.toList.head? ≠ some '\x60'

/-- The expression is `z.literal` of a string. -/
def TakesLiteral (node literal : Node) : Prop :=
  ∃ argument rest, CallsBuilder node "literal" (argument :: rest) ∧ WritesString argument literal

/-- The expression is `z.enum` of these elements, one of which is a string. -/
def ListsLiteral (node element literal : Node) (elements : List Node) : Prop :=
  ∃ list rest, CallsBuilder node "enum" (list :: rest) ∧ arrayElements? list = some elements ∧
    element ∈ elements ∧ WritesString element literal

/-- Builders of records. -/
def recordBuilders : List String := ["object", "strictObject", "looseObject"]

/-- The expression is `z.object` of a shape in which a key is a string. -/
def NamesField (node key : Node) : Prop :=
  ∃ method ∈ recordBuilders, ∃ shape rest members member, CallsBuilder node method (shape :: rest) ∧
    objectMembers? shape = some members ∧ member ∈ members ∧ member.kind = .pair ∧
    member.field? .key = some key ∧ key.kind = .string

/-- What stands in the brackets behind a value, given the nodes that it stands in. -/
def subscript? (value : Node) : List Node → Option Node
  | [] => none
  | parent :: above =>
    if isValueWrapper parent.kind then subscript? parent above
    else if parent.kind == .subscriptExpression && value.role == some .object then
      parent.unwrappedField? .index
    else none

/-- The handler reads a property of its payload with a string, or a template without substitutions, in
brackets. -/
def ReadsProperty (cx : HandlerContext) (body literal : Node) : Prop :=
  ∃ holder ∈ cx.payload.holders, ∃ spot ∈ usesOf cx.function body holder, ∃ index,
    subscript? spot.node spot.above = some index ∧ CopiedAs index literal (inside literal.text)

/-- The text is a literal in single quotes that denotes the string. -/
def QuotesAs (text : String) (units : List Nat) : Prop :=
  text.toList.head? = some '\x27' ∧ literalUnits? text = some units

/-- Something is known of the type of every literal of these kinds. -/
def literalKinds : List Kind := [.string, .number, .trueLiteral, .falseLiteral, .nullLiteral]

/-- The expression is a literal, maybe under wrappers. -/
def WritesLiteral (node : Node) : Prop :=
  ∃ literal, node.unwrap? = some literal ∧ literal.kind ∈ literalKinds

section Copies

variable {scope : Scope} {following : List String} {node element literal key body : Node}
  {elements args : List Node} {method : String} {value : List Nat} {cx : HandlerContext}
  {starts continues : Char → Bool}

theorem CallsBuilder.interpret_eq (h : CallsBuilder node method args) : interpret scope following node =
    (builder (m := Id) (interpret scope following) (followName scope following (interpret scope))
      method args).run := by
  obtain ⟨object, hobject, hcall⟩ := h
  rw [Schema.interpret_eq, expressionRule_of_callsMethod hcall, if_pos (List.contains_iff_mem.2 hobject)]

theorem WritesString.literalType_eq (h : WritesString node literal) :
    literalType node = .named (literalText (inside literal.text)) := by
  have hvalue : literal.stringValue? = some (inside literal.text) :=
    stringValue?_eq_some_iff.2 ⟨literal, Node.unwrap?_of_unwrap? h.unwrap_eq, .inl h.kind, rfl⟩
  rw [literalType, h.unwrap_eq]
  dsimp only
  rw [h.kind, hvalue]
  rfl

/-- What the literal denotes that a type has for a string. -/
theorem WritesString.quotesAs_iff (h : WritesString node literal)
    (hvalue : literalUnits? literal.text = some value) :
    QuotesAs (literalText (inside literal.text)) value ↔ ¬ Guarded (inside literal.text).toList := by
  obtain ⟨quote, hquote, hcontent⟩ := exists_contentUnits? hvalue
  have hnotTemplate : quote ≠ '\x60' := fun heq => h.quotes (heq ▸ hquote)
  have htext : (literalText (inside literal.text)).toList =
      '\x27' :: (Grammar.guardQuotes (inside literal.text).toList ++ ['\x27']) := by
    rw [literalText, toList_quoted, String.toList_ofList]
    rfl
  rw [QuotesAs, htext, Grammar.literalUnits?_of_toList htext,
    (content_of_contentUnits? hcontent).contentUnits?_guardQuotes hnotTemplate]
  simp

theorem TakesLiteral.interpret_eq (h : TakesLiteral node literal) : interpret scope following node =
    some ⟨.named (literalText (inside literal.text)), false⟩ := by
  obtain ⟨argument, rest, hcall, hstring⟩ := h
  rw [hcall.interpret_eq, ← hstring.literalType_eq]
  rfl

theorem literalType_eq_unknown_iff : literalType node = .unknown ↔ ¬ WritesLiteral node := by
  rw [literalType, WritesLiteral]
  cases node.unwrap? with
  | none => simp
  | some literal =>
      dsimp only
      split
      · rename_i hkind
        simp [hkind, literalKinds]
      · rename_i hkind
        simp [hkind, literalKinds]
      · rename_i hkind
        simp [hkind, literalKinds]
      · rename_i hkind
        simp [hkind, literalKinds]
      · rename_i hkind
        simp [hkind, literalKinds]
      · rename_i hstring hnumber htrue hfalse hnull
        simpa [literalKinds] using ⟨hstring, hnumber, htrue, hfalse, hnull⟩

/-- A string in a list stands in the union, unless something in the list is no literal. -/
theorem mem_members_enum_iff (helement : element ∈ elements) (hstring : WritesString element literal) :
    .named (literalText (inside literal.text)) ∈ (unionOf (elements.map literalType)).members ↔
      ∀ other ∈ elements, WritesLiteral other := by
  have hnormalized : ∀ type ∈ elements.map literalType, Normalized type :=
    List.forall_mem_map.2 fun other _ => normalized_literalType other
  have hmem := List.mem_map_of_mem (f := literalType) helement
  rw [hstring.literalType_eq] at hmem
  rw [mem_members_unionOf_iff hnormalized hmem rfl (by simp), List.mem_map]
  simp only [literalType_eq_unknown_iff, not_exists, not_and, not_not]

section Rules

variable {self : Node → Id (Option Parsed)} {follow : String → Id (Option Parsed)}
  {first member : Node} {rest members : List Node}

theorem run_builder_enum (h : arrayElements? first = some elements) :
    (builder self follow "enum" (first :: rest)).run =
      some ⟨.unionOf (elements.map literalType), false⟩ := by
  have hlookup : basicBuilders.lookup "enum" = none := by decide
  simp only [builder, hlookup, List.head?_cons, List.getLast?_cons, h]
  rfl

theorem run_builder_record (hmethod : method ∈ recordBuilders) (h : objectMembers? first = some members) :
    (builder self follow method (first :: rest)).run =
      some ⟨.record ((members.map fun member => (Schema.memberField? self follow member).run).filterMap id),
        false⟩ := by
  rw [← @run_builder_object self follow first rest members h]
  simp only [recordBuilders, List.mem_cons, List.not_mem_nil, or_false] at hmethod
  rcases hmethod with rfl | rfl | rfl <;> rfl

/-- A key of the shape is the name of a field. -/
theorem exists_field_of_key (hmethod : method ∈ recordBuilders) (h : objectMembers? first = some members)
    (hmember : member ∈ members) (hkind : member.kind = .pair) (hkey : member.field? .key = some key) :
    ∃ fields field, (builder self follow method (first :: rest)).run = some ⟨.record fields, false⟩ ∧
      field ∈ fields ∧ field.name = key.keyName := by
  have hfield : (Schema.memberField? self follow member).run =
      some (schemaField key.keyName (optionalSchema self (member.field? .value)).run) := by
    rw [Schema.memberField?, hkind, hkey]
    rfl
  refine ⟨_, _, run_builder_record hmethod h,
    List.mem_filterMap.2 ⟨_, List.mem_map_of_mem hmember, hfield⟩, ?_⟩
  cases (optionalSchema self (member.field? .value)).run <;> rfl

end Rules

/-- What is used first is the property that is read with brackets. -/
theorem property?_usageOf {value index : Node} {above : List Node} {name : String}
    (h : subscript? value above = some index) (hname : index.stringValue? = some name) :
    property? (usageOf value above) = some name := by
  fun_induction subscript? value above with
  | case1 => cases h
  | case2 value parent above hwrapper ih =>
      rw [usageOf, if_pos hwrapper]
      exact ih h
  | case3 value parent above hwrapper hsubscript =>
      rw [Bool.and_eq_true, beq_iff_eq, beq_iff_eq] at hsubscript
      obtain ⟨hkind, hrole⟩ := hsubscript
      have hmember : (parent.kind == .memberExpression && value.role == some .object) = false := by
        rw [hkind]
        rfl
      have hbrackets : (parent.kind == .subscriptExpression && value.role == some .object) = true := by
        rw [hkind, hrole]
        rfl
      have hnumber : (index.kind == .number) = false := by
        rw [beq_eq_false_iff_ne]
        intro hkind
        simp [Node.stringValue?, Node.unwrap?_eq, hkind, Kind.isWrapper] at hname
      rw [usageOf, if_neg hwrapper, hmember, if_neg Bool.false_ne_true, hbrackets, if_pos rfl, h]
      dsimp only
      rw [hnumber, if_neg Bool.false_ne_true, hname]
      rfl
  | case4 => cases h

theorem mem_properties_of_readsProperty (h : ReadsProperty cx body literal) :
    inside literal.text ∈ properties (destructuredUsages cx body ++ holderUsages cx body) := by
  obtain ⟨holder, hholder, spot, hspot, index, hindex, hcopied⟩ := h
  refine mem_properties.2 ⟨usageOf spot.node spot.above, List.mem_append_right _ ?_, ?_⟩
  · exact List.mem_flatMap.2 ⟨holder, hholder, List.mem_map_of_mem hspot⟩
  · exact property?_usageOf hindex (stringValue?_eq_some_iff.2 ⟨literal, hcopied⟩)

/-! ### What the copies denote -/


/-- What the name of a field denotes when the key is a string. -/
theorem nameUnits?_keyName (hkind : key.kind = .string) (h : literalUnits? key.text = some value) :
    nameUnits? starts continues (renderName key.keyName) = some value ↔
      inside key.text ≠ "" ∧ Keeps starts continues (inside key.text) := by
  have hstring : key.stringValue? = some (inside key.text) := by
    simp [Node.stringValue?, Node.unwrap?_eq, hkind, Kind.isWrapper]
  rw [Node.keyName, hstring]
  dsimp only
  by_cases hempty : inside key.text = ""
  · -- The quotes of an empty string are taken for its name.
    obtain ⟨quote, content, hquote, htext, hcontent⟩ := Grammar.literalUnits?_eq_some_iff.1 h
    have hnil : content = [] := by
      have hinside := congrArg String.toList hempty
      simpa [Text.inside, htext] using hinside
    subst hnil
    cases hcontent
    have hkey : key.text = String.ofList [quote, quote] := by
      rw [← String.ofList_toList (s := key.text), htext]
      rfl
    have hquotes : isIdentifier (String.ofList [quote, quote]) = false ∧
        contentUnits? '\x27' 0 [quote, quote] ≠ some [] := by
      simp only [List.mem_cons, List.not_mem_nil, or_false] at hquote
      rcases hquote with rfl | rfl | rfl <;> exact ⟨rfl, by decide⟩
    obtain ⟨hidentifier, hunits⟩ := hquotes
    rw [if_pos (by simpa using hempty), hkey, renderName, if_neg (by simpa using hidentifier),
      nameUnits?_quoted, String.toList_ofList]
    exact iff_of_false hunits fun hkeeps => hkeeps.1 (hkey ▸ hempty)
  · rw [if_neg (by simpa using hempty), nameUnits?_renderName h]
    simp [hempty]

/-- For every literal of the four kinds: the text of the type has its copy in its place, and the copy denotes
the same string, exactly when

- no apostrophe in the literal has a backslash, in `z.literal` and `z.enum`, and then there is nothing but
  literals in the list;
- the name is an identifier of the language, or quotes are put around it and there is no apostrophe and no
  end of a line in it without a backslash, and the key of a shape is not empty. -/
theorem copied_texts_iff (starts continues : Char → Bool) :
    (∀ scope following node literal units, TakesLiteral node literal →
      literalUnits? literal.text = some units →
      ∃ type, interpret scope following node = some ⟨type, false⟩ ∧
        (QuotesAs type.render units ↔ ¬ Guarded (inside literal.text).toList)) ∧
    (∀ scope following node element literal elements units, ListsLiteral node element literal elements →
      literalUnits? literal.text = some units →
      ∃ type, interpret scope following node = some ⟨type, false⟩ ∧
        type.render = String.intercalate " | " (type.members.map render) ∧
        (literalType element ∈ type.members ∧ QuotesAs (literalType element).render units ↔
          (∀ other ∈ elements, WritesLiteral other) ∧ ¬ Guarded (inside literal.text).toList)) ∧
    (∀ scope following node key units, NamesField node key → literalUnits? key.text = some units →
      ∃ fields field, interpret scope following node = some ⟨.record fields, false⟩ ∧ field ∈ fields ∧
        field.name = key.keyName ∧
        render (.record fields) = "\x7b " ++ String.intercalate "; " (fields.map renderField) ++ " \x7d" ∧
        renderField field = renderName field.name ++ (if field.optional then "?" else "") ++ ": " ++
          field.type.render ∧
        (nameUnits? starts continues (renderName field.name) = some units ↔
          inside key.text ≠ "" ∧ Keeps starts continues (inside key.text))) ∧
    ∀ cx body literal units, cx.function.field? .body = some body → ReadsProperty cx body literal →
      literalUnits? literal.text = some units →
      ∃ fields field, usedType? cx = some (.record fields) ∧ field ∈ fields ∧
        field.name = inside literal.text ∧
        render (.record fields) = "\x7b " ++ String.intercalate "; " (fields.map renderField) ++ " \x7d" ∧
        renderField field = renderName field.name ++ (if field.optional then "?" else "") ++ ": " ++
          field.type.render ∧
        (informative (validatedType? cx) = none → informative (helperType? cx) = none →
          ∀ verb, inputType cx verb = .record fields) ∧
        (nameUnits? starts continues (renderName field.name) = some units ↔
          Keeps starts continues (inside literal.text)) := by
  refine ⟨fun scope following node literal units htakes hunits => ?_,
    fun scope following node element literal elements units hlists hunits => ?_,
    fun scope following node key units hnames hunits => ?_,
    fun cx body literal units hbody hreads hunits => ?_⟩
  · obtain ⟨argument, rest, -, hstring⟩ := id htakes
    exact ⟨_, htakes.interpret_eq, hstring.quotesAs_iff hunits⟩
  · obtain ⟨list, rest, hcall, helements, helement, hstring⟩ := hlists
    refine ⟨.unionOf (elements.map literalType), ?_, render_eq_intercalate _, ?_⟩
    · rw [hcall.interpret_eq, run_builder_enum helements]
    · rw [hstring.literalType_eq]
      exact and_congr (mem_members_enum_iff helement hstring) (hstring.quotesAs_iff hunits)
  · obtain ⟨method, hmethod, shape, rest, members, member, hcall, hmembers, hmember, hpair, hkey, hkind⟩ :=
      hnames
    obtain ⟨fields, field, hbuilder, hmem, hname⟩ :=
      exists_field_of_key hmethod hmembers hmember hpair hkey
    refine ⟨fields, field, hcall.interpret_eq.trans hbuilder, hmem, hname,
      render_record (List.ne_nil_of_mem hmem), renderField_eq field, ?_⟩
    rw [hname]
    exact nameUnits?_keyName hkind hunits
  · obtain ⟨fields, hused, -, hmem⟩ := mem_fields_of_recordOf? (mem_properties_of_readsProperty hreads)
    rw [← usedType?_eq hbody] at hused
    refine ⟨fields, _, hused, hmem, rfl, render_record (List.ne_nil_of_mem hmem), renderField_eq _,
      fun hvalidated hannotated verb => ?_, nameUnits?_renderName hunits⟩
    refine inputType_of_used hvalidated hannotated ?_
    rw [hused]
    rfl

/-! ### Copies in fixed sources -/

/-- Is the expression a call of the builder, with such a first argument? -/
def callsBuilder (method : String) (check : Node → Bool) (node : Node) : Bool :=
  match (node.field? .function).bind Node.memberParts?, node.callArguments with
  | some (object, called), first :: _ =>
    node.kind == .callExpression && called == method && namespaces.contains object.text && check first
  | _, _ => false

theorem exists_of_callsBuilder {check : Node → Bool} (h : callsBuilder method check node = true) :
    ∃ first rest, CallsBuilder node method (first :: rest) ∧ check first = true := by
  rw [callsBuilder] at h
  split at h
  · rename_i object called first rest hparts hargs
    simp only [Bool.and_eq_true, beq_iff_eq, List.contains_iff_mem] at h
    obtain ⟨⟨⟨hkind, rfl⟩, hobject⟩, hcheck⟩ := h
    have hunwrap : node.unwrap? = some node := by
      simp [Node.unwrap?_eq, hkind, Kind.isWrapper]
    exact ⟨first, rest, ⟨object, hobject, node, hunwrap, hkind, hparts, hargs⟩, hcheck⟩
  · cases h

/-- Is the expression a string with this text? -/
def writesString (text : String) (node : Node) : Bool :=
  node.unwrap?.any fun literal => literal.kind == .string && literal.text == text

theorem exists_of_writesString {text : String} (htext : text.toList.head? ≠ some '\x60')
    (h : writesString text node = true) : ∃ literal, WritesString node literal ∧ literal.text = text := by
  obtain ⟨literal, hunwrap, h⟩ := (Option.any_eq_true _ _).1 h
  rw [Bool.and_eq_true, beq_iff_eq, beq_iff_eq] at h
  exact ⟨literal, ⟨hunwrap, h.1, h.2 ▸ htext⟩, h.2⟩

end Copies

/-- A program with a literal in each of the four places. -/
def quotedSource : String :=
  "const L = z.literal(\x22it's\x22);\nconst E = z.enum(['a']);\n" ++
    "const O = z.object(\x7b 'b-c': z.any() \x7d);\n" ++
    "export function POST(req): T \x7b\n  const b = req.body;\n  return b['d e'];\n\x7d\n"

/-- Does a handler find out nothing else of its payload than that a property is read with the text? -/
def readsProperty (text : String) (program : Node) (site : HandlerSite) : Bool :=
  let cx := HandlerContext.ofFunction site.function (.ofModule program)
  (informative (validatedType? cx)).isNone && (informative (helperType? cx)).isNone &&
    (cx.function.field? .body).any fun body => cx.payload.holders.any fun holder =>
      (usesOf cx.function body holder).any fun spot =>
        (subscript? spot.node spot.above).any (writesString text)

/-- Does the expression list the string together with literals only? -/
def listsString (text : String) (list : Node) : Bool :=
  (arrayElements? list).any fun elements => elements.any (writesString text) &&
    elements.all fun element => element.unwrap?.any fun literal => literalKinds.contains literal.kind

/-- Does the expression have the string as a key? -/
def namesString (text : String) (shape : Node) : Bool :=
  (objectMembers? shape).any fun members => members.any fun member =>
    member.kind == .pair && (member.field? .key).any fun key => key.kind == .string && key.text == text

/-- Does the program have the literals in their places? -/
def quotes (program : Node) : Bool :=
  program.preorder.any (callsBuilder "literal" (writesString "\x22it's\x22")) &&
    program.preorder.any (callsBuilder "enum" (listsString "'a'")) &&
    program.preorder.any (callsBuilder "object" (namesString "'b-c'")) &&
    (discoverHandlers program).any (readsProperty "'d e'" program)

theorem exists_of_listsString {node : Node} {text : String} (htext : text.toList.head? ≠ some '\x60')
    (h : callsBuilder "enum" (listsString text) node = true) : ∃ element literal elements,
      ListsLiteral node element literal elements ∧ literal.text = text ∧
      ∀ other ∈ elements, WritesLiteral other := by
  obtain ⟨list, rest, hcall, h⟩ := exists_of_callsBuilder h
  obtain ⟨elements, helements, h⟩ := (Option.any_eq_true _ _).1 h
  rw [Bool.and_eq_true, List.all_eq_true] at h
  obtain ⟨element, helement, hwrites⟩ := List.any_eq_true.1 h.1
  obtain ⟨literal, hstring, htext⟩ := exists_of_writesString htext hwrites
  refine ⟨element, literal, elements, ⟨list, rest, hcall, helements, helement, hstring⟩, htext,
    fun other hother => ?_⟩
  obtain ⟨literal, hunwrap, hkind⟩ := (Option.any_eq_true _ _).1 (h.2 other hother)
  exact ⟨literal, hunwrap, List.contains_iff_mem.1 hkind⟩

theorem exists_of_namesString {node : Node} {text : String}
    (h : callsBuilder "object" (namesString text) node = true) :
    ∃ key, NamesField node key ∧ key.text = text := by
  obtain ⟨shape, rest, hcall, h⟩ := exists_of_callsBuilder h
  obtain ⟨members, hmembers, h⟩ := (Option.any_eq_true _ _).1 h
  obtain ⟨member, hmember, h⟩ := List.any_eq_true.1 h
  rw [Bool.and_eq_true, beq_iff_eq] at h
  obtain ⟨key, hkey, hstring⟩ := (Option.any_eq_true _ _).1 h.2
  rw [Bool.and_eq_true, beq_iff_eq, beq_iff_eq] at hstring
  exact ⟨key, ⟨"object", by decide, shape, rest, members, member, hcall, hmembers, hmember, h.1, hkey,
    hstring.1⟩, hstring.2⟩

theorem exists_of_readsProperty {program : Node} {site : HandlerSite} {text : String}
    (htext : text.toList.head? ≠ some '\x60') (h : readsProperty text program site = true) :
    ∃ cx body literal, cx = HandlerContext.ofFunction site.function (.ofModule program) ∧
      cx.function.field? .body = some body ∧ ReadsProperty cx body literal ∧ literal.text = text ∧
      informative (validatedType? cx) = none ∧ informative (helperType? cx) = none := by
  simp only [readsProperty, Bool.and_eq_true, Option.isNone_iff_eq_none] at h
  obtain ⟨⟨hvalidated, hannotated⟩, h⟩ := h
  obtain ⟨body, hbody, h⟩ := (Option.any_eq_true _ _).1 h
  obtain ⟨holder, hholder, h⟩ := List.any_eq_true.1 h
  obtain ⟨spot, hspot, h⟩ := List.any_eq_true.1 h
  obtain ⟨index, hindex, h⟩ := (Option.any_eq_true _ _).1 h
  obtain ⟨literal, hstring, htext⟩ := exists_of_writesString htext h
  exact ⟨_, body, literal, rfl, hbody, ⟨holder, hholder, spot, hspot, index, hindex, hstring.unwrap_eq,
    .inl hstring.kind, rfl⟩, htext, hvalidated, hannotated⟩

set_option maxRecDepth 1000000 in
/-- In all four places, copies that denote what the literals do. -/
theorem copied_texts_quoted : ∃ program, Grammar.parse? quotedSource = some program ∧
    (∃ node literal type, TakesLiteral node literal ∧ literal.text = "\x22it's\x22" ∧
      interpret (.ofModule program) [] node = some ⟨type, false⟩ ∧
      QuotesAs type.render (Grammar.codeUnits "it's".toList)) ∧
    (∃ node element literal elements type, ListsLiteral node element literal elements ∧
      literal.text = "'a'" ∧ interpret (.ofModule program) [] node = some ⟨type, false⟩ ∧
      literalType element ∈ type.members ∧
      QuotesAs (literalType element).render (Grammar.codeUnits "a".toList)) ∧
    (∃ node key fields field, NamesField node key ∧ key.text = "'b-c'" ∧
      interpret (.ofModule program) [] node = some ⟨.record fields, false⟩ ∧ field ∈ fields ∧
      nameUnits? isIdentifierStart isIdentifierChar (renderName field.name) =
        some (Grammar.codeUnits "b-c".toList)) ∧
    ∃ site ∈ discoverHandlers program, ∃ cx body literal fields field,
      cx = HandlerContext.ofFunction site.function (.ofModule program) ∧ ReadsProperty cx body literal ∧
      literal.text = "'d e'" ∧ inputType cx site.verb = .record fields ∧ field ∈ fields ∧
      nameUnits? isIdentifierStart isIdentifierChar (renderName field.name) =
        some (Grammar.codeUnits "d e".toList) := by
  have hcheck : (Grammar.parse? quotedSource).any quotes = true := by decide +kernel
  obtain ⟨program, hparse, h⟩ := (Option.any_eq_true _ _).1 hcheck
  simp only [quotes, Bool.and_eq_true] at h
  obtain ⟨⟨⟨hliteral, henum⟩, hobject⟩, hread⟩ := h
  obtain ⟨copied, listed, named, read⟩ := copied_texts_iff isIdentifierStart isIdentifierChar
  refine ⟨program, hparse, ?_, ?_, ?_, ?_⟩
  · obtain ⟨node, -, h⟩ := List.any_eq_true.1 hliteral
    obtain ⟨argument, rest, hcall, hwrites⟩ := exists_of_callsBuilder h
    obtain ⟨literal, hstring, htext⟩ := exists_of_writesString (by decide) hwrites
    have htakes : TakesLiteral node literal := ⟨argument, rest, hcall, hstring⟩
    obtain ⟨type, htype, hquotes⟩ := copied (.ofModule program) [] node literal
      (Grammar.codeUnits "it's".toList) htakes (by rw [htext]; decide +kernel)
    exact ⟨node, literal, type, htakes, htext, htype, hquotes.2 (by rw [htext]; decide +kernel)⟩
  · obtain ⟨node, -, h⟩ := List.any_eq_true.1 henum
    obtain ⟨element, literal, elements, hlists, htext, hothers⟩ := exists_of_listsString (by decide) h
    obtain ⟨type, htype, -, hquotes⟩ := listed (.ofModule program) [] node element literal elements
      (Grammar.codeUnits "a".toList) hlists (by rw [htext]; decide +kernel)
    obtain ⟨hmem, hquotes⟩ := hquotes.2 ⟨hothers, by rw [htext]; decide +kernel⟩
    exact ⟨node, element, literal, elements, type, hlists, htext, htype, hmem, hquotes⟩
  · obtain ⟨node, -, h⟩ := List.any_eq_true.1 hobject
    obtain ⟨key, hnames, htext⟩ := exists_of_namesString h
    obtain ⟨fields, field, htype, hmem, -, -, -, hunits⟩ := named (.ofModule program) [] node key
      (Grammar.codeUnits "b-c".toList) hnames (by rw [htext]; decide +kernel)
    exact ⟨node, key, fields, field, hnames, htext, htype, hmem,
      hunits.2 (by rw [htext]; decide +kernel)⟩
  · obtain ⟨site, hsite, h⟩ := List.any_eq_true.1 hread
    obtain ⟨cx, body, literal, hcx, hbody, hreads, htext, hvalidated, hannotated⟩ :=
      exists_of_readsProperty (by decide) h
    obtain ⟨fields, field, -, hmem, -, -, -, hinput, hunits⟩ := read cx body literal
      (Grammar.codeUnits "d e".toList) hbody hreads (by rw [htext]; decide +kernel)
    exact ⟨site, hsite, cx, body, literal, fields, field, hcx, hreads, htext,
      hinput hvalidated hannotated site.verb, hmem, hunits.2 (by rw [htext]; decide +kernel)⟩

/-- A literal with an escaped apostrophe. -/
def escapedSource : String := "const S = z.literal('it\\'s');\n"

set_option maxRecDepth 1000000 in
/-- Its copy is no literal at all: the apostrophe closes the quotes, and more is behind it. -/
theorem copied_text_escaped : ∃ program node literal, Grammar.parse? escapedSource = some program ∧
    node ∈ program.preorder ∧ TakesLiteral node literal ∧
    literalUnits? literal.text = some (Grammar.codeUnits "it's".toList) ∧
    ∀ scope following, ∃ type, interpret scope following node = some ⟨type, false⟩ ∧
      type.render = "'it\\\\'s'" ∧ literalUnits? type.render = none := by
  have hcheck : (Grammar.parse? escapedSource).any (fun program => program.preorder.any
      (callsBuilder "literal" (writesString "'it\\'s'"))) = true := by
    decide +kernel
  obtain ⟨program, hparse, h⟩ := (Option.any_eq_true _ _).1 hcheck
  obtain ⟨node, hnode, h⟩ := List.any_eq_true.1 h
  obtain ⟨argument, rest, hcall, hwrites⟩ := exists_of_callsBuilder h
  obtain ⟨literal, hstring, htext⟩ := exists_of_writesString (by decide) hwrites
  have htakes : TakesLiteral node literal := ⟨argument, rest, hcall, hstring⟩
  refine ⟨program, node, literal, hparse, hnode, htakes, ?_, fun scope following =>
    ⟨_, htakes.interpret_eq, ?_, ?_⟩⟩
  · rw [htext]
    decide +kernel
  · rw [htext]
    decide +kernel
  · rw [htext]
    decide +kernel

end RouteBinder.Analysis
