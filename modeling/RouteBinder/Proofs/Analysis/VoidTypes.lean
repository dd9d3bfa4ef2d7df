import RouteBinder.Proofs.Analysis.NormalizedTypes
import RouteBinder.Proofs.Analysis.SchemaShapes

/-!
# RouteBinder.Proofs.Analysis.VoidTypes

**Which annotations and schemas are void.** `void` is no type that something else is simplified to: an
annotation is void when nothing but the word `void` is left of it without parentheses and bars
(`writtenType_eq_void_iff`), and a schema when `z.void()` is all that is left of it
(`Schema.interpret_eq_void_iff`).

`WritesVoid` and `Schema.VoidSchema` have one rule for each form that the word or the call may be wrapped
in. The readers are matched with them form by form; what they have in common is that a union is void only
if all its types are (`TypeExpr.unionOf_eq_void_iff`).
-/

namespace RouteBinder.TypeExpr

variable {types : List TypeExpr} {type : TypeExpr} {permitted : String → Prop}

/-- What is left of repetitions of one type. -/
theorem distinct_eq_singleton (hne : types ≠ []) (h : ∀ other ∈ types, other = type) :
    distinct types = [type] := by
  have hall : ∀ other ∈ distinct types, other = type := fun other hother => h other (mem_distinct.1 hother)
  obtain ⟨first, hfirst⟩ := List.exists_mem_of_ne_nil types hne
  have hpos := List.length_pos_of_mem (mem_distinct.2 hfirst)
  have hnodup := nodup_distinct types
  rw [List.eq_replicate_of_mem hall, List.nodup_replicate] at hnodup
  rw [List.eq_replicate_of_mem hall, show (distinct types).length = 1 by omega]
  rfl

theorem NormalOver.eq_void (h : NormalOver permitted type)
    (hvoid : ∀ member ∈ type.members, member = .void) : type = .void := by
  cases h with
  | @union members hlength hnodup =>
      rw [List.eq_replicate_of_mem (show ∀ member ∈ members, member = .void from hvoid),
        List.nodup_replicate] at hnodup
      omega
  | _ => exact hvoid _ (List.mem_singleton_self _)

/-- No other part is lost in a union that is void. -/
theorem eq_void_of_unionOf (h : unionOf types = .void) :
    types ≠ [] ∧ ∀ part ∈ types.flatMap TypeExpr.members, part = .void := by
  rw [unionOf] at h
  split at h
  · cases h
  · split at h
    · cases h
    · rename_i only honly
      subst h
      refine ⟨?_, fun part hpart => ?_⟩
      · rintro rfl
        cases honly
      · exact List.mem_singleton.1 (honly ▸ mem_distinct.2 hpart)
    · cases h

/-- An alternative that is no union and not void does not go away. -/
theorem unionOf_pair_ne_void {alternative : TypeExpr} (h : alternative.members = [alternative])
    (hne : alternative ≠ .void) : unionOf [type, alternative] ≠ .void := by
  intro hvoid
  refine hne ((eq_void_of_unionOf hvoid).2 alternative (List.mem_flatMap.2 ⟨alternative, ?_, ?_⟩))
  · exact List.mem_cons_of_mem _ (List.mem_singleton_self _)
  · rw [h]
    exact List.mem_singleton_self _

theorem unionOf_null_ne_void : unionOf [type, .null] ≠ .void :=
  unionOf_pair_ne_void rfl (by decide)

/-- A union is void if there are types and all of them are. -/
theorem unionOf_void (hne : types ≠ []) (h : ∀ type ∈ types, type = .void) :
    unionOf types = .void := by
  have hparts : ∀ part ∈ types.flatMap TypeExpr.members, part = .void := by
    intro part hpart
    obtain ⟨type, htype, hmember⟩ := List.mem_flatMap.1 hpart
    rw [h type htype] at hmember
    exact List.mem_singleton.1 hmember
  have hknown : (types.flatMap TypeExpr.members).any isUnknown = false := by
    rw [List.any_eq_false]
    intro part hpart
    rw [hparts part hpart]
    exact Bool.false_ne_true
  have hpartsNe : types.flatMap TypeExpr.members ≠ [] := by
    obtain ⟨first, hfirst⟩ := List.exists_mem_of_ne_nil types hne
    refine List.ne_nil_of_mem (a := .void) (List.mem_flatMap.2 ⟨first, hfirst, ?_⟩)
    rw [h first hfirst]
    exact List.mem_singleton_self _
  rw [unionOf, hknown, if_neg Bool.false_ne_true, distinct_eq_singleton hpartsNe hparts]

theorem unionOf_eq_void_iff (h : ∀ type ∈ types, NormalOver permitted type) :
    unionOf types = .void ↔ types ≠ [] ∧ ∀ type ∈ types, type = .void := by
  constructor
  · intro hvoid
    obtain ⟨hne, hparts⟩ := eq_void_of_unionOf hvoid
    refine ⟨hne, fun type htype => (h type htype).eq_void fun member hmember => ?_⟩
    exact hparts member (List.mem_flatMap.2 ⟨type, htype, hmember⟩)
  · rintro ⟨hne, hvoid⟩
    exact unionOf_void hne hvoid

end RouteBinder.TypeExpr

namespace RouteBinder.Analysis

open Source TypeExpr

/-! ### Annotations -/

/-- The type syntax consists of the word `void` in parentheses and between bars. -/
inductive WritesVoid : Node → Prop where
  | word {node : Node} (hkind : node.kind = .predefinedType) (htext : node.text = "void") :
      WritesVoid node
  | wrapped {node type : Node} (hkind : node.kind = .typeClause ∨ node.kind = .parenthesizedType)
      (htype : node.firstNamed? = some type) (hvoid : WritesVoid type) : WritesVoid node
  | union {node : Node} (hkind : node.kind = .unionType) (hne : node.namedChildren ≠ [])
      (hvoid : ∀ type ∈ node.namedChildren, WritesVoid type) : WritesVoid node

theorem writtenType_of_writesVoid {node : Node} (h : WritesVoid node) : writtenType node = .void := by
  induction h with
  | word hkind htext =>
      rw [writtenType.eq_def, hkind, htext]
      rfl
  | wrapped hkind htype _ ih =>
      rcases hkind with hkind | hkind
      · exact (writtenType_typeClause hkind htype).trans ih
      · exact (writtenType_parenthesizedType hkind htype).trans ih
  | @union node hkind hne _ ih =>
      rw [writtenType_unionType hkind]
      refine unionOf_void (by simpa using hne) fun type htype => ?_
      obtain ⟨member, hmember, rfl⟩ := List.mem_map.1 htype
      exact ih member hmember

theorem writesVoid_of_writtenType {node : Node} (h : writtenType node = .void) : WritesVoid node := by
  fun_induction writtenType node with
  | case1 _ hkind _ htype ih => exact .wrapped (.inl hkind) htype (ih h)
  | case3 _ hkind _ htype ih => exact .wrapped (.inr hkind) htype (ih h)
  | case6 _ hkind htext => exact .word hkind htext
  | case10 node hkind ih =>
      have hunion : unionOf (node.namedChildren.map writtenType) = .void := by
        rw [← writtenType_unionType hkind, writtenType.eq_def, hkind]
        exact h
      rw [unionOf_eq_void_iff (List.forall_mem_map.2 fun type _ => normal_writtenType type)] at hunion
      refine .union hkind (by simpa using hunion.1) fun type htype => ih type htype ?_
      exact hunion.2 _ (List.mem_map_of_mem htype)
  | _ => cases h

theorem writtenType_eq_void_iff {node : Node} : writtenType node = .void ↔ WritesVoid node :=
  ⟨writesVoid_of_writtenType, writtenType_of_writesVoid⟩

/-! ### Schemas, rule by rule -/

namespace Schema

/-- The expression is a call of a method of the object, maybe under wrappers. -/
def CallsMethod (node object : Node) (method : String) (args : List Node) : Prop :=
  ∃ call, node.unwrap? = some call ∧ call.kind = .callExpression ∧
    (call.field? .function).bind Node.memberParts? = some (object, method) ∧
    call.callArguments = args

/-- The expression is a name, maybe under wrappers. -/
def IsName (node : Node) (name : String) : Prop :=
  ∃ identifier, node.unwrap? = some identifier ∧ identifier.kind = .identifier ∧
    identifier.text = name

/-- What a schema is read as that accepts nothing but `undefined`. -/
abbrev void : Option Parsed := some ⟨.void, false⟩

section Rules

variable {self : Node → Id (Option Parsed)} {follow : String → Id (Option Parsed)} {node : Node}
  {args : List Node} {inner : Parsed} {method : String}

theorem asType_eq_void_iff : inner.asType = .void ↔ inner = ⟨.void, false⟩ := by
  obtain ⟨type, optional⟩ := inner
  cases optional with
  | false => simp [Parsed.asType]
  | true => exact iff_of_false (unionOf_pair_ne_void rfl (by decide)) (by simp)

theorem elementType_eq_void_iff : (elementType self node).run = .void ↔ (self node).run = void := by
  show ((self node).run.map Parsed.asType).getD .unknown = .void ↔ _
  cases (self node).run with
  | none => simp
  | some parsed => simp [asType_eq_void_iff]

theorem literalType_ne_void : literalType node ≠ .void := by
  rw [literalType]
  split
  · simp
  · split <;> simp

theorem basicBuilder_eq_void_iff {type : TypeExpr} (h : basicBuilders.lookup method = some type) :
    type = .void ↔ method = "void" := by
  have hall : ∀ entry ∈ basicBuilders, entry.2 = .void ↔ entry.1 = "void" := by decide
  exact hall (method, type) (Keyed.mem_of_lookup h)

theorem union_elementTypes_eq_void_iff (h : Normalizes self) (options : List Node) :
    unionOf (options.mapM (elementType self)).run = .void ↔
      options ≠ [] ∧ ∀ option ∈ options, (self option).run = void := by
  rw [unionOf_eq_void_iff (normalized_elementTypes h options), List.idRun_mapM]
  simp [elementType_eq_void_iff]

/-- Builders of unions. -/
def unionBuilders : List String := ["union", "discriminatedUnion"]

theorem shapeType_ne_void : (shapeType self follow node).run ≠ .void := by
  rw [shapeType]
  split
  · intro hvoid
    cases hvoid
  · intro hvoid
    cases hvoid

theorem eq_of_run_bind {type : Id TypeExpr}
    (h : (do let type ← type; return some ⟨type, false⟩ : Id (Option Parsed)).run = void) :
    type.run = .void :=
  congrArg Parsed.type (Option.some.inj h)

theorem of_run_union_eq_void (h : Normalizes self) {options : List Node}
    (hvoid : (do
      let types ← options.mapM (elementType self)
      return some ⟨.unionOf types, false⟩ : Id (Option Parsed)).run = void) :
    options ≠ [] ∧ ∀ option ∈ options, (self option).run = void :=
  (union_elementTypes_eq_void_iff h options).1 (congrArg Parsed.type (Option.some.inj hvoid))

/-- A builder of void schemas is the one for that, or makes a union of void schemas. -/
theorem of_builder_eq_void (h : Normalizes self) (hvoid : (builder self follow method args).run = void) :
    method = "void" ∨ method ∈ unionBuilders ∧ ∃ last options, args.getLast? = some last ∧
      arrayElements? last = some options ∧ options ≠ [] ∧
      ∀ option ∈ options, (self option).run = void := by
  unfold builder at hvoid
  split at hvoid
  · rename_i hbasic
    exact .inl ((basicBuilder_eq_void_iff hbasic).1 (eq_of_run_bind hvoid))
  · rename_i last _ _ hlast
    split at hvoid
    · exact absurd (eq_of_run_bind hvoid) literalType_ne_void
    · split at hvoid
      · rename_i elements _
        -- a choice of literals is no type without values
        have hunion : unionOf (elements.map literalType) = .void := eq_of_run_bind hvoid
        rw [unionOf_eq_void_iff (List.forall_mem_map.2 fun element _ => normalized_literalType element)]
          at hunion
        obtain ⟨element, helement⟩ := List.exists_mem_of_ne_nil _ hunion.1
        obtain ⟨literal, -, rfl⟩ := List.mem_map.1 helement
        exact absurd (hunion.2 _ helement) literalType_ne_void
      · cases eq_of_run_bind hvoid
    · cases eq_of_run_bind hvoid
    · cases hvoid
    · exact absurd (eq_of_run_bind hvoid) shapeType_ne_void
    · exact absurd (eq_of_run_bind hvoid) shapeType_ne_void
    · exact absurd (eq_of_run_bind hvoid) shapeType_ne_void
    · cases hvoid
    · split at hvoid
      · rename_i options helements
        exact .inr ⟨by decide, last, options, hlast, helements, of_run_union_eq_void h hvoid⟩
      · cases hvoid
    · split at hvoid
      · rename_i options helements
        exact .inr ⟨by decide, last, options, hlast, helements, of_run_union_eq_void h hvoid⟩
      · cases hvoid
    · split at hvoid
      · cases hvoid
      · cases hvoid
    · cases congrArg Parsed.optional (Option.some.inj hvoid)
    · exact absurd (congrArg Parsed.type (Option.some.inj hvoid)) unionOf_null_ne_void
    · cases hvoid
  · cases hvoid

theorem builder_void : (builder self follow "void" args).run = void := rfl

theorem builder_union_eq_void (h : Normalizes self) (hmethod : method ∈ unionBuilders)
    {last : Node} {options : List Node} (hlast : args.getLast? = some last)
    (helements : arrayElements? last = some options) (hne : options ≠ [])
    (hvoid : ∀ option ∈ options, (self option).run = void) :
    (builder self follow method args).run = void := by
  have hunion := (union_elementTypes_eq_void_iff h options).2 ⟨hne, hvoid⟩
  have hrun : (builder self follow method args).run =
      some ⟨.unionOf (options.mapM (elementType self)).run, false⟩ := by
    cases args with
    | nil => cases hlast
    | cons first rest =>
        simp only [unionBuilders, List.mem_cons, List.not_mem_nil, or_false] at hmethod
        have hunion : basicBuilders.lookup "union" = none := by decide
        have hdiscriminated : basicBuilders.lookup "discriminatedUnion" = none := by decide
        rcases hmethod with rfl | rfl
        · simp only [builder, hunion, List.head?_cons, hlast, helements]
          rfl
        · simp only [builder, hdiscriminated, List.head?_cons, hlast, helements]
          rfl
  rw [hrun, hunion]

theorem reshape_ne_void {fields : List Field} : (reshape self follow fields method args).run ≠ .void := by
  unfold reshape
  split <;> (intro hvoid; cases hvoid)

theorem union_pair_eq_void_iff (h : Normalizes self) (hinner : Normalized inner.type) (other : Node) :
    unionOf [inner.asType, (elementType self other).run] = .void ↔
      inner = ⟨.void, false⟩ ∧ (self other).run = void := by
  have hnormalized : ∀ type ∈ [inner.asType, (elementType self other).run], Normalized type := by
    rw [List.forall_mem_cons, List.forall_mem_singleton]
    exact ⟨normalized_asType hinner, normalized_elementType h other⟩
  rw [unionOf_eq_void_iff hnormalized, List.forall_mem_cons, List.forall_mem_singleton,
    asType_eq_void_iff, elementType_eq_void_iff]
  simp

/-- A modified schema is void if it was before, and is only refined or given a void alternative. -/
theorem of_modifier_eq_void (h : Normalizes self) (hinner : Normalized inner.type)
    (hvoid : (modifier self follow inner method args).run = void) :
    inner = ⟨.void, false⟩ ∧ (method ∈ refinements ∨
      method = "or" ∧ ∃ other rest, args = other :: rest ∧ (self other).run = void) := by
  unfold modifier at hvoid
  split at hvoid
  · rename_i hrefinement
    exact ⟨Option.some.inj hvoid, .inl (List.contains_iff_mem.1 hrefinement)⟩
  · split at hvoid
    · split at hvoid
      · exact absurd (eq_of_run_bind hvoid) reshape_ne_void
      · cases hvoid
    · split at hvoid
      · cases hvoid
      · split at hvoid
        · cases congrArg Parsed.optional (Option.some.inj hvoid)
        · exact absurd (congrArg Parsed.type (Option.some.inj hvoid)) unionOf_null_ne_void
        · cases congrArg Parsed.optional (Option.some.inj hvoid)
        · cases hvoid
        · rename_i other rest _ _ _
          have hunion : unionOf [inner.asType, (elementType self other).run] = .void :=
            eq_of_run_bind hvoid
          obtain ⟨hvoid, hother⟩ := (union_pair_eq_void_iff h hinner other).1 hunion
          exact ⟨hvoid, .inr ⟨rfl, other, rest, rfl, hother⟩⟩
        · cases hvoid

theorem modifier_or_eq_void (h : Normalizes self) {other : Node} (hother : (self other).run = void) :
    (modifier self follow ⟨.void, false⟩ "or" (other :: args)).run = void := by
  have hunion : unionOf [Parsed.asType ⟨.void, false⟩, (elementType self other).run] = .void :=
    (union_pair_eq_void_iff h .void other).2 ⟨rfl, hother⟩
  show some (⟨unionOf [Parsed.asType ⟨.void, false⟩, (elementType self other).run], false⟩ : Parsed) = void
  rw [hunion]

/-! ### Schemas -/

/-- What the rules say of an expression that is read as a void schema. -/
theorem of_expressionRule_eq_void
    (hvoid : (expressionRule self follow node).run = void) :
    (∃ name, IsName node name ∧ (follow name).run = void) ∨
      ∃ object method args, CallsMethod node object method args ∧
        (object.text ∈ namespaces ∧ (builder self follow method args).run = void ∨
          object.text ∉ namespaces ∧ ∃ inner, (self object).run = some inner ∧
            (modifier self follow inner method args).run = void) := by
  unfold expressionRule at hvoid
  split at hvoid
  · cases hvoid
  · rename_i expression hexpression
    split at hvoid
    · rename_i hkind
      exact .inl ⟨expression.text, ⟨expression, hexpression, hkind, rfl⟩, hvoid⟩
    · rename_i hkind
      split at hvoid
      · rename_i object method hparts
        refine .inr ⟨object, method, expression.callArguments,
          ⟨expression, hexpression, hkind, hparts, rfl⟩, ?_⟩
        dsimp only at hvoid
        split at hvoid
        · rename_i hnamespace
          exact .inl ⟨List.contains_iff_mem.1 hnamespace, hvoid⟩
        · rename_i hnamespace
          refine .inr ⟨mt List.contains_iff_mem.2 hnamespace, ?_⟩
          cases hobject : self object with
          | none =>
              rw [hobject] at hvoid
              cases hvoid
          | some inner =>
              rw [hobject] at hvoid
              exact ⟨inner, rfl, hvoid⟩
      · cases hvoid
    · cases hvoid

theorem expressionRule_of_isName {name : String} (h : IsName node name) :
    expressionRule self follow node = follow name := by
  obtain ⟨identifier, hidentifier, hkind, rfl⟩ := h
  rw [expressionRule, hidentifier]
  dsimp only
  rw [hkind]

theorem expressionRule_of_callsMethod {object : Node} (h : CallsMethod node object method args) :
    expressionRule self follow node =
      if namespaces.contains object.text then builder self follow method args
      else match self object with
        | some inner => modifier self follow inner method args
        | none => none := by
  obtain ⟨call, hcall, hkind, hparts, rfl⟩ := h
  rw [expressionRule, hcall]
  dsimp only
  rw [hkind]
  dsimp only
  rw [hparts]
  rfl

end Rules

/-- Of the schema, nothing is left but `z.void()` when names are followed, refinements are taken away, and
unions are taken apart. A name can also be annotated as a schema of `void`. -/
inductive VoidSchema (scope : Scope) : List String → Node → Prop where
  | annotated {following : List String} {node type argument : Node} {name : String}
      (hname : IsName node name) (htype : (scope.lookup? name).bind Binding.declaredType = some type)
      (hkind : type.kind = .genericType) (hclass : genericName type ∈ schemaClasses)
      (hargument : (typeArguments type).getLast? = some argument) (hvoid : WritesVoid argument) :
      VoidSchema scope following node
  | constant {following : List String} {node value : Node} {name : String} {binding : Binding}
      (hname : IsName node name) (hplain : declaredType? scope name = none)
      (hfresh : name ∉ following) (hfound : scope.lookup? name = some binding)
      (hkind : binding.kind = .simple) (hvalue : binding.value = some value)
      (hvoid : VoidSchema scope (name :: following) value) : VoidSchema scope following node
  | builder {following : List String} {node object : Node} {args : List Node}
      (hcall : CallsMethod node object "void" args) (hobject : object.text ∈ namespaces) :
      VoidSchema scope following node
  | union {following : List String} {node object last : Node} {method : String}
      {args options : List Node} (hcall : CallsMethod node object method args)
      (hobject : object.text ∈ namespaces) (hmethod : method ∈ unionBuilders)
      (hlast : args.getLast? = some last) (helements : arrayElements? last = some options)
      (hne : options ≠ []) (hvoid : ∀ option ∈ options, VoidSchema scope following option) :
      VoidSchema scope following node
  | refined {following : List String} {node object : Node} {method : String} {args : List Node}
      (hcall : CallsMethod node object method args) (hobject : object.text ∉ namespaces)
      (hmethod : method ∈ refinements) (hvoid : VoidSchema scope following object) :
      VoidSchema scope following node
  | alternative {following : List String} {node object other : Node} {rest : List Node}
      (hcall : CallsMethod node object "or" (other :: rest)) (hobject : object.text ∉ namespaces)
      (hvoid : VoidSchema scope following object) (hother : VoidSchema scope following other) :
      VoidSchema scope following node

variable {scope : Scope} {following : List String} {node : Node}

theorem declaredType?_eq_void_iff {name : String} : declaredType? scope name = some .void ↔
    ∃ type argument, (scope.lookup? name).bind Binding.declaredType = some type ∧
      type.kind = .genericType ∧ genericName type ∈ schemaClasses ∧
      (typeArguments type).getLast? = some argument ∧ WritesVoid argument := by
  rw [declaredType?]
  cases (scope.lookup? name).bind Binding.declaredType with
  | none => simp
  | some type => simp [writtenType_eq_void_iff, and_assoc]

theorem interpret_of_voidSchema (h : VoidSchema scope following node) :
    interpret scope following node = void := by
  have hnormalizes : ∀ following, Normalizes (interpret scope following) := fun following asked =>
    normalized_interpret scope following asked
  induction h with
  | annotated hname htype hkind hclass hargument hvoid =>
      have hdeclared := declaredType?_eq_void_iff.2 ⟨_, _, htype, hkind, hclass, hargument, hvoid⟩
      rw [interpret_eq, expressionRule_of_isName hname, followName, hdeclared]
      rfl
  | constant hname hplain hfresh hfound hkind hvalue _ ih =>
      rw [interpret_eq, expressionRule_of_isName hname, followName, hplain]
      dsimp only
      rw [if_neg (mt List.contains_iff_mem.1 hfresh), hfound]
      dsimp only
      rw [hkind, hvalue]
      exact ih
  | builder hcall hobject =>
      rw [interpret_eq, expressionRule_of_callsMethod hcall, if_pos (List.contains_iff_mem.2 hobject)]
      exact builder_void
  | union hcall hobject hmethod hlast helements hne _ ih =>
      rw [interpret_eq, expressionRule_of_callsMethod hcall, if_pos (List.contains_iff_mem.2 hobject)]
      exact builder_union_eq_void (hnormalizes _) hmethod hlast helements hne ih
  | refined hcall hobject hmethod _ ih =>
      rw [interpret_eq, expressionRule_of_callsMethod hcall, if_neg (mt List.contains_iff_mem.1 hobject), ih]
      exact run_modifier_refinement hmethod
  | alternative hcall hobject _ _ ih ihOther =>
      rw [interpret_eq, expressionRule_of_callsMethod hcall, if_neg (mt List.contains_iff_mem.1 hobject), ih]
      exact modifier_or_eq_void (hnormalizes _) ihOther

/-- As in `interpret`, the names that are still to be followed become fewer, and so do the nodes. -/
theorem voidSchema_of_interpret (scope : Scope) (following : List String) (node : Node)
    (h : interpret scope following node = void) : VoidSchema scope following node := by
  have hpart : ∀ {part : Node} {parsed : Parsed},
      (if _h : part.size < node.size then interpret scope following part else none) = some parsed →
        part.size < node.size ∧ interpret scope following part = some parsed := by
    intro part parsed hparsed
    split at hparsed
    · rename_i hlt
      exact ⟨hlt, hparsed⟩
    · cases hparsed
  have hnormalizes : Normalizes fun part : Node =>
      if _h : part.size < node.size then interpret scope following part else none :=
    fun part parsed hparsed => normalized_interpret scope following part parsed (hpart hparsed).2
  rw [interpret] at h
  rcases of_expressionRule_eq_void h with ⟨name, hname, hfollow⟩ | ⟨object, method, args, hcall, hrest⟩
  · split at hfollow
    · rename_i hdeclared
      obtain rfl := congrArg Parsed.type (Option.some.inj hfollow)
      obtain ⟨type, argument, htype, hkind, hclass, hargument, hvoid⟩ :=
        declaredType?_eq_void_iff.1 hdeclared
      exact .annotated hname htype hkind hclass hargument hvoid
    · rename_i hplain
      split at hfollow
      · rename_i hfresh
        split at hfollow
        · rename_i binding hfound
          split at hfollow
          · rename_i value hkind hvalue
            have hvoid := voidSchema_of_interpret scope (name :: following) value hfollow
            have hnotMem : name ∉ following := by simpa using hfresh
            exact .constant hname hplain hnotMem hfound hkind hvalue hvoid
          · cases hfollow
        · cases hfollow
      · cases hfollow
  · rcases hrest with ⟨hobject, hbuilder⟩ | ⟨hobject, inner, hinner, hmodifier⟩
    · rcases of_builder_eq_void hnormalizes hbuilder with
        rfl | ⟨hmethod, last, options, hlast, helements, hne, hvoid⟩
      · exact .builder hcall hobject
      · refine .union hcall hobject hmethod hlast helements hne fun option hoption => ?_
        obtain ⟨hlt, hvoid⟩ := hpart (hvoid option hoption)
        exact voidSchema_of_interpret scope following option hvoid
    · obtain ⟨rfl, hmethod⟩ := of_modifier_eq_void hnormalizes (hnormalizes object inner hinner) hmodifier
      obtain ⟨hlt, hobjectVoid⟩ := hpart hinner
      have hvoid := voidSchema_of_interpret scope following object hobjectVoid
      rcases hmethod with hmethod | ⟨rfl, other, rest, rfl, hother⟩
      · exact .refined hcall hobject hmethod hvoid
      · obtain ⟨hltOther, hotherVoid⟩ := hpart hother
        exact .alternative hcall hobject hvoid
          (voidSchema_of_interpret scope following other hotherVoid)
termination_by (scope.unlisted following, node.size)
decreasing_by
  · exact Prod.Lex.left _ _ (Scope.unlisted_cons_lt (by assumption) (by assumption))
  · exact Prod.Lex.right _ (by assumption)
  · exact Prod.Lex.right _ (by assumption)
  · exact Prod.Lex.right _ (by assumption)

/-- A schema is read as void if nothing else is left of it. -/
theorem interpret_eq_void_iff : interpret scope following node = void ↔
    VoidSchema scope following node :=
  ⟨voidSchema_of_interpret scope following node, interpret_of_voidSchema⟩

theorem schemaType?_eq_void_iff : schemaType? scope node = some .void ↔ VoidSchema scope [] node := by
  rw [← interpret_eq_void_iff, schemaType?]
  cases interpret scope [] node with
  | none => simp
  | some parsed => simp [asType_eq_void_iff]

end Schema

end RouteBinder.Analysis
