import RouteBinder.Analysis.Typing
import RouteBinder.Proofs.Analysis.NestedUnions
import RouteBinder.Proofs.Keyed

/-!
# RouteBinder.Proofs.Analysis.NormalizedTypes

**Types that are found are in normal form.** A type is found in three ways: it is written in an annotation, a
schema describes it, or it is the type of an expression. Unions are made by `unionOf` in all three, and all
else that is put together keeps the types in it as they are; so the unions in what is found are in normal form
(`normalForm_laws`). What there is to show is one fact for each rule: it keeps normal forms when the readings
of smaller nodes and of names do.

For `unionOf` itself the normal form is what makes it associative: members of unions are taken apart one level
deep, and that is all there is.
-/

namespace RouteBinder.TypeExpr

variable {types xs ys : List TypeExpr} {permitted : String → Prop}

/-- Nothing is known of a union exactly when nothing is known of one of its types. -/
theorem unionOf_eq_unknown_iff (h : ∀ type ∈ types, NormalOver permitted type) (hne : types ≠ []) :
    unionOf types = .unknown ↔ .unknown ∈ types := by
  constructor
  · intro hunion
    -- the unknown part is a type of the list, since a union has no unknown member
    have hpart : .unknown ∈ types.flatMap TypeExpr.members := by
      cases hknown : (types.flatMap TypeExpr.members).any isUnknown with
      | true =>
          obtain ⟨part, hpart, hunknown⟩ := List.any_eq_true.1 hknown
          cases part <;> simp_all [isUnknown]
      | false =>
          have hmembers := members_unionOf h hne hknown
          rw [hunion] at hmembers
          exact mem_of_mem_distinct (hmembers ▸ List.mem_singleton_self _)
    obtain ⟨type, htype, hmember⟩ := List.mem_flatMap.1 hpart
    cases h type htype with
    | union _ _ hmembers => exact absurd (hmembers _ hmember).not_isUnknown (by simp [isUnknown])
    | _ => exact List.mem_singleton.1 hmember ▸ htype
  · intro hmem
    refine unionOf_of_unknown (List.any_eq_true.2 ⟨.unknown, ?_, rfl⟩)
    exact List.mem_flatMap.2 ⟨.unknown, hmem, List.mem_singleton_self _⟩

/-- The union of two unions is the union of all their types. -/
theorem unionOf_pair (hx : ∀ type ∈ xs, NormalOver permitted type)
    (hy : ∀ type ∈ ys, NormalOver permitted type) (hxs : xs ≠ []) (hys : ys ≠ []) :
    unionOf [unionOf xs, unionOf ys] = unionOf (xs ++ ys) := by
  calc
    unionOf [unionOf xs, unionOf ys] = unionOf (xs ++ [unionOf ys]) := unionOf_absorb [] _ hx hxs
    _ = unionOf (xs ++ ys) := by simpa using unionOf_absorb xs [] hy hys

theorem normalized_pair {first second : TypeExpr} (hfirst : Normalized first)
    (hsecond : Normalized second) : Normalized (unionOf [first, second]) :=
  normal_unionOf (by simp [hfirst, hsecond])

theorem Normalized.of_mem_fields {type : TypeExpr} {field : Field} (h : Normalized type)
    (hfield : field ∈ type.fields) : Normalized field.type := by
  cases h with
  | record _ htypes => exact htypes field hfield
  | _ => simp [fields] at hfield

/-- The fields of a record are among those that it was made of. -/
theorem mem_of_mem_foldl_putField {added present : List Field} {field : Field}
    (h : field ∈ added.foldl putField present) : field ∈ present ∨ field ∈ added := by
  induction added generalizing present with
  | nil => exact Or.inl h
  | cons first rest ih =>
      have hput : ∀ other ∈ putField present first, other ∈ present ∨ other = first := by
        intro other hother
        rw [putField] at hother
        split at hother
        · obtain ⟨old, hold, rfl⟩ := List.mem_map.1 hother
          split <;> simp [hold]
        · simpa using hother
      rcases ih h with hpresent | hrest
      · rcases hput field hpresent with hold | rfl
        · exact Or.inl hold
        · exact Or.inr List.mem_cons_self
      · exact Or.inr (List.mem_cons_of_mem _ hrest)

theorem normalized_recordOf {added : List Field} (h : ∀ field ∈ added, Normalized field.type) :
    Normalized (recordOf added) := by
  refine .record (fun _ _ => trivial) ?_
  intro field hfield
  have hmem := mem_of_mem_foldl_putField hfield
  simp only [List.not_mem_nil, false_or] at hmem
  exact h field hmem

end RouteBinder.TypeExpr

namespace RouteBinder.Analysis

open Source TypeExpr

/-! ### Schemas -/

namespace Schema

variable {self : Node → Id (Option Parsed)} {follow : String → Id (Option Parsed)} {node : Node}
  {args : List Node} {parsed : Parsed}

/-- All answers have types in normal form. -/
def Normalizes {α : Type} (answer : α → Id (Option Parsed)) : Prop :=
  ∀ asked, ∀ parsed ∈ (answer asked).run, Normalized parsed.type

theorem normalized_asType (h : Normalized parsed.type) : Normalized parsed.asType := by
  rw [Parsed.asType]
  split
  · exact normalized_pair h (.primitive _)
  · exact h

theorem normalized_elementType (h : Normalizes self) (node : Node) :
    Normalized (elementType self node).run := by
  show Normalized (((self node).run.map Parsed.asType).getD .unknown)
  cases hself : (self node).run with
  | none => exact .unknown
  | some parsed => exact normalized_asType (h node parsed hself)

theorem normalized_elementTypes (h : Normalizes self) (elements : List Node) :
    ∀ type ∈ (elements.mapM (elementType self)).run, Normalized type := by
  rw [List.idRun_mapM]
  intro type htype
  obtain ⟨element, -, rfl⟩ := List.mem_map.1 htype
  exact normalized_elementType h element

theorem normalized_literalType (node : Node) : Normalized (literalType node) := by
  rw [literalType]
  split
  · exact .unknown
  · split
    all_goals first
      | exact .named _
      | exact .unknown

theorem normalized_basicBuilder {method : String} {type : TypeExpr}
    (h : basicBuilders.lookup method = some type) : Normalized type := by
  have hall : ∀ entry ∈ basicBuilders, Normalized entry.2 := by
    simp only [basicBuilders, List.forall_mem_cons, List.not_mem_nil, false_implies, implies_true,
      and_true]
    exact ⟨.primitive _, .primitive _, .primitive _, .primitive _, .named _, .primitive _, .primitive _,
      .primitive _, .unknown, .void, .primitive _⟩
  exact hall _ (Keyed.mem_of_lookup h)

theorem normalized_schemaField (name : String) {found : Option Parsed}
    (h : ∀ parsed ∈ found, Normalized parsed.type) : Normalized (schemaField name found).type := by
  cases found with
  | none => exact .unknown
  | some parsed => exact h parsed rfl

theorem normalized_memberField? (h : Normalizes self) (hfollow : Normalizes follow) :
    ∀ field ∈ (memberField? self follow node).run, Normalized field.type := by
  intro field hfield
  rw [memberField?] at hfield
  split at hfield
  · cases hfield
    refine normalized_schemaField _ ?_
    cases node.field? .value with
    | none =>
        intro parsed hparsed
        cases hparsed
    | some value => exact h value
  · cases hfield
    exact normalized_schemaField _ (hfollow _)
  · cases hfield

theorem normalized_shapeType (h : Normalizes self) (hfollow : Normalizes follow) (node : Node) :
    Normalized (shapeType self follow node).run := by
  rw [shapeType]
  split
  · rename_i members _
    show Normalized (.record ((members.mapM (memberField? self follow)).run.filterMap id))
    refine .record (fun _ _ => trivial) ?_
    intro field hfield
    rw [List.idRun_mapM] at hfield
    obtain ⟨found, hfound, hsome⟩ := List.mem_filterMap.1 hfield
    obtain ⟨member, -, rfl⟩ := List.mem_map.1 hfound
    exact normalized_memberField? h hfollow field hsome
  · exact .unknown

theorem normalized_builder (h : Normalizes self) (hfollow : Normalizes follow) (method : String) :
    ∀ parsed ∈ (builder self follow method args).run, Normalized parsed.type := by
  intro parsed hparsed
  unfold builder at hparsed
  split at hparsed
  · rename_i hbasic
    cases hparsed
    exact normalized_basicBuilder hbasic
  · split at hparsed
    · cases hparsed
      exact normalized_literalType _
    · split at hparsed
      · cases hparsed
        refine normal_unionOf ?_
        intro type htype
        obtain ⟨element, -, rfl⟩ := List.mem_map.1 htype
        exact normalized_literalType element
      · cases hparsed
        exact .named _
    · cases hparsed
      exact .named _
    · cases hparsed
      exact .array (normalized_elementType h _)
    · cases hparsed
      exact normalized_shapeType h hfollow _
    · cases hparsed
      exact normalized_shapeType h hfollow _
    · cases hparsed
      exact normalized_shapeType h hfollow _
    · cases hparsed
      exact .named _
    · split at hparsed
      · cases hparsed
        exact normal_unionOf (normalized_elementTypes h _)
      · cases hparsed
    · split at hparsed
      · cases hparsed
        exact normal_unionOf (normalized_elementTypes h _)
      · cases hparsed
    · split at hparsed
      · cases hparsed
        exact .named _
      · cases hparsed
    · cases hparsed
      exact normalized_elementType h _
    · cases hparsed
      exact normalized_pair (normalized_elementType h _) (.primitive _)
    · cases hparsed
  · cases hparsed

theorem normalized_reshape (h : Normalizes self) (hfollow : Normalizes follow) {fields : List Field}
    (hfields : ∀ field ∈ fields, Normalized field.type) (method : String) :
    Normalized (reshape self follow fields method args).run := by
  have hadded : ∀ {added : TypeExpr}, Normalized added →
      Normalized (recordOf (fields ++ added.fields)) := by
    intro added hadded
    refine normalized_recordOf ?_
    intro field hfield
    rcases List.mem_append.1 hfield with hfield | hfield
    · exact hfields field hfield
    · exact Normalized.of_mem_fields hadded hfield
  have hrelabeled : ∀ optional, Normalized (.record (fields.map fun f => { f with optional })) := by
    intro optional
    refine .record (fun _ _ => trivial) ?_
    intro field hfield
    obtain ⟨old, hold, rfl⟩ := List.mem_map.1 hfield
    exact hfields old hold
  have hkept : ∀ keep : Field → Bool, Normalized (.record (fields.filter keep)) := fun keep =>
    .record (fun _ _ => trivial) fun field hfield => hfields field (List.mem_filter.1 hfield).1
  unfold reshape
  split
  · exact hadded (normalized_shapeType h hfollow _)
  · exact hadded (normalized_elementType h _)
  · exact hrelabeled true
  · exact hrelabeled true
  · exact hrelabeled false
  · exact hkept _
  · exact hkept _
  · exact .record (fun _ _ => trivial) hfields

theorem normalized_modifier (h : Normalizes self) (hfollow : Normalizes follow) {inner : Parsed}
    (hinner : Normalized inner.type) (method : String) :
    ∀ parsed ∈ (modifier self follow inner method args).run, Normalized parsed.type := by
  have hnull := normalized_pair hinner (.primitive "null")
  intro parsed hparsed
  unfold modifier at hparsed
  split at hparsed
  · cases hparsed
    exact hinner
  · split at hparsed
    · split at hparsed
      · rename_i fields htype
        cases hparsed
        refine normalized_reshape h hfollow ?_ method
        intro field hfield
        exact Normalized.of_mem_fields hinner (htype ▸ hfield)
      · cases hparsed
        exact .unknown
    · split at hparsed
      · cases hparsed
        exact .unknown
      · split at hparsed
        · cases hparsed
          exact hinner
        · cases hparsed
          exact hnull
        · cases hparsed
          exact hnull
        · cases hparsed
          exact .array (normalized_asType hinner)
        · cases hparsed
          exact normalized_pair (normalized_asType hinner) (normalized_elementType h _)
        · cases hparsed

theorem normalized_expressionRule (h : Normalizes self) (hfollow : Normalizes follow) :
    ∀ parsed ∈ (expressionRule self follow node).run, Normalized parsed.type := by
  intro parsed hparsed
  unfold expressionRule at hparsed
  split at hparsed
  · cases hparsed
  · split at hparsed
    · exact hfollow _ parsed hparsed
    · split at hparsed
      · rename_i object method _
        dsimp only at hparsed
        split at hparsed
        · exact normalized_builder h hfollow method parsed hparsed
        · cases hobject : self object with
          | none =>
              rw [hobject] at hparsed
              cases hparsed
          | some inner =>
              rw [hobject] at hparsed
              exact normalized_modifier h hfollow (h object inner hobject) method parsed hparsed
      · cases hparsed
    · cases hparsed

theorem normalized_declaredType? {scope : Scope} {name : String} {type : TypeExpr}
    (h : declaredType? scope name = some type) : Normalized type := by
  rw [declaredType?] at h
  split at h
  · split at h
    · obtain ⟨written, -, rfl⟩ := Option.map_eq_some_iff.1 h
      exact (normal_writtenType written).normalized
    · cases h
  · cases h

/-- What a schema describes is in normal form. The names that are still to be followed become fewer, and so
do the nodes. -/
theorem normalized_interpret (scope : Scope) (following : List String) (node : Node) :
    ∀ parsed ∈ interpret scope following node, Normalized parsed.type := by
  rw [interpret]
  refine normalized_expressionRule ?_ ?_
  · intro part parsed hparsed
    simp only at hparsed
    split at hparsed
    · exact normalized_interpret scope following part parsed hparsed
    · cases hparsed
  · intro name parsed hparsed
    simp only at hparsed
    split at hparsed
    · rename_i hdeclared
      cases hparsed
      exact normalized_declaredType? hdeclared
    · split at hparsed
      · split at hparsed
        · split at hparsed
          · exact normalized_interpret scope (name :: following) _ parsed hparsed
          · cases hparsed
        · cases hparsed
      · cases hparsed
        exact .named _
termination_by (scope.unlisted following, node.size)
decreasing_by
  · exact Prod.Lex.right _ (by assumption)
  · exact Prod.Lex.left _ _ (Scope.unlisted_cons_lt (by assumption) (by assumption))

end Schema

theorem normalized_schemaType? {scope : Scope} {node : Node} {type : TypeExpr}
    (h : schemaType? scope node = some type) : Normalized type := by
  obtain ⟨parsed, hparsed, rfl⟩ := Option.map_eq_some_iff.1 h
  exact Schema.normalized_asType (Schema.normalized_interpret scope [] node parsed hparsed)

/-! ### Expressions -/

namespace Typing

variable {scope : Scope} {self : Node → Typed} {variable_ returned : String → Typed} {node : Node}
  {args : List Node}

/-- If there is a result, it has the property. -/
def Ensures {α : Type} (p : α → Prop) (computed : Except CircularReturn α) : Prop :=
  ∀ result, computed = .ok result → p result

theorem Ensures.ok {α : Type} {p : α → Prop} {result : α} (h : p result) : Ensures p (.ok result) := by
  intro other hother
  cases hother
  exact h

theorem Ensures.error {α : Type} {p : α → Prop} {cause : CircularReturn} : Ensures p (.error cause) := by
  intro result hresult
  cases hresult

theorem Ensures.bind {α β : Type} {p : α → Prop} {q : β → Prop} {computed : Except CircularReturn α}
    {f : α → Except CircularReturn β} (h : Ensures p computed) (hf : ∀ x, p x → Ensures q (f x)) :
    Ensures q (computed >>= f) := by
  cases computed with
  | ok result => exact hf result (h result rfl)
  | error cause => exact .error

theorem Ensures.map {α β : Type} {p : α → Prop} {q : β → Prop} {computed : Except CircularReturn α}
    {f : α → β} (h : Ensures p computed) (hf : ∀ x, p x → q (f x)) : Ensures q (computed.map f) :=
  h.bind fun x hx => .ok (hf x hx)

theorem ensures_mapM {α β : Type} {p : β → Prop} {f : α → Except CircularReturn β} {items : List α}
    (h : ∀ item ∈ items, Ensures p (f item)) :
    Ensures (fun results => ∀ result ∈ results, p result) (items.mapM f) := by
  induction items with
  | nil => exact .ok (by simp)
  | cons item rest ih =>
      rw [List.mapM_cons]
      obtain ⟨hitem, hrest⟩ := List.forall_mem_cons.1 h
      refine hitem.bind fun first hfirst => ?_
      refine (ih hrest).bind fun others hothers => .ok ?_
      exact List.forall_mem_cons.2 ⟨hfirst, hothers⟩

theorem ensures_optionalType (h : ∀ part, Ensures Normalized (self part)) (part? : Option Node) :
    Ensures Normalized (optionalType self part?) := by
  cases part? with
  | none => exact .ok .unknown
  | some part => exact h part

theorem ensures_returnRule (h : ∀ part, Ensures Normalized (self part)) (function : Node) :
    Ensures Normalized (returnRule self function) := by
  unfold returnRule
  split
  · exact .ok (normal_writtenType _).normalized
  · exact .ok .unknown
  · split
    · split
      · exact ensures_optionalType h _
      · exact .ok .unknown
    · exact h _

theorem ensures_memberFields (h : ∀ part, Ensures Normalized (self part))
    (hvariable : ∀ name, Ensures Normalized (variable_ name)) (member : Node) :
    Ensures (fun added => ∀ field ∈ added, Normalized field.type)
      (memberFields self variable_ member) := by
  have hlone : ∀ {name type}, Normalized type →
      ∀ field ∈ [(⟨name, type, false⟩ : Field)], Normalized field.type := fun htype =>
    List.forall_mem_singleton.2 htype
  unfold memberFields
  split
  · split
    · exact .ok (by simp)
    · split
      · exact .ok (by simp)
      · exact (ensures_optionalType h _).bind fun type htype => .ok (hlone htype)
  · exact (hvariable _).bind fun type htype => .ok (hlone htype)
  · exact (ensures_optionalType h _).bind fun type htype =>
      .ok fun field hfield => Normalized.of_mem_fields htype hfield
  · exact .ok (by simp)

theorem ensures_objectRule (h : ∀ part, Ensures Normalized (self part))
    (hvariable : ∀ name, Ensures Normalized (variable_ name)) :
    Ensures Normalized (objectRule self variable_ node) := by
  refine (ensures_mapM fun member _ => ensures_memberFields h hvariable member).bind ?_
  intro fields hfields
  refine .ok (normalized_recordOf ?_)
  intro field hfield
  obtain ⟨added, hadded, hmem⟩ := List.mem_flatten.1 hfield
  exact hfields added hadded field hmem

theorem ensures_arrayRule (h : ∀ part, Ensures Normalized (self part)) :
    Ensures Normalized (arrayRule self node) :=
  (ensures_mapM fun element _ => h element).bind fun _ htypes => .ok (.array (normal_unionOf htypes))

theorem normalized_constructionRule (node : Node) : Normalized (constructionRule node) := by
  unfold constructionRule
  dsimp only
  split
  · exact .named _
  · split
    · exact .named _
    · split
      · exact .unknown
      · exact .named _

theorem ensures_methodRule (h : ∀ part, Ensures Normalized (self part)) {receiver : TypeExpr}
    (hreceiver : Normalized receiver) (method : String) :
    Ensures Normalized (methodRule self receiver method args) := by
  have hotherwise : Normalized
      (if stringResultMethods.contains method then .string
      else if receiver == .string && (method == "slice" || method == "at") then .string
      else .unknown) := by
    split
    · exact .primitive _
    · split
      · exact .primitive _
      · exact .unknown
  have hmapper : ∀ function : Node, Ensures Normalized ((returnRule self function).map TypeExpr.array) :=
    fun function => (ensures_returnRule h function).map fun _ => .array
  unfold methodRule
  dsimp only
  split
  · split
    · exact .ok hreceiver
    · split
      · cases hreceiver with
        | array helement => exact .ok (normalized_pair helement (.primitive _))
      · split
        · split
          · exact hmapper _
          · exact .ok (.array .unknown)
        · split
          · exact hmapper _
          · exact .ok (.array .unknown)
        · exact .ok hotherwise
  · exact .ok hotherwise

theorem ensures_memberCallRule (h : ∀ part, Ensures Normalized (self part)) (object : Node)
    (method : String) : Ensures Normalized (memberCallRule scope self object method args) := by
  unfold memberCallRule
  dsimp only
  split
  · rename_i type hparsed
    split at hparsed
    · refine .ok ?_
      split
      · exact normalized_schemaType? hparsed
      · exact .named _
    · cases hparsed
  · split
    · exact .ok (.primitive _)
    · split
      · exact .ok (.primitive _)
      · split
        · exact .ok (.array (.primitive _))
        · exact (h object).bind fun receiver hreceiver => ensures_methodRule h hreceiver method

theorem ensures_callRule (h : ∀ part, Ensures Normalized (self part))
    (hreturned : ∀ name, Ensures Normalized (returned name)) :
    Ensures Normalized (callRule scope self returned node) := by
  unfold callRule
  dsimp only
  split
  · exact .ok (.primitive _)
  · split
    · exact .ok (.primitive _)
    · split
      · exact .ok (.primitive _)
      · split
        · split
          · split
            · exact (ensures_returnRule h _).map fun _ => .array
            · exact .ok (.array .unknown)
          · exact .ok (.array .unknown)
        · split
          · exact .ok .unknown
          · split
            · exact hreturned _
            · split
              · exact ensures_memberCallRule h _ _
              · exact .ok .unknown

theorem ensures_memberRule (h : ∀ part, Ensures Normalized (self part)) :
    Ensures Normalized (memberRule self node) := by
  unfold memberRule
  split
  · exact .ok .unknown
  · refine (h _).bind fun receiver hreceiver => ?_
    split
    · exact .ok (.primitive _)
    · exact .ok (.primitive _)
    · split
      · rename_i field hfield
        have htype := Normalized.of_mem_fields hreceiver (List.mem_of_find?_eq_some hfield)
        refine .ok ?_
        split
        · exact normalized_pair htype (.primitive _)
        · exact htype
      · exact .ok .unknown

theorem ensures_subscriptRule (h : ∀ part, Ensures Normalized (self part)) :
    Ensures Normalized (subscriptRule self node) := by
  unfold subscriptRule
  refine (ensures_optionalType h _).bind fun receiver hreceiver => ?_
  split
  · cases hreceiver with
    | array helement => exact .ok helement
  · refine .ok ?_
    cases hfield : ((node.field? .index).bind Node.stringValue?).bind receiver.field? with
    | none => exact .unknown
    | some field =>
        obtain ⟨name, -, hfound⟩ := Option.bind_eq_some_iff.1 hfield
        exact Normalized.of_mem_fields hreceiver (List.mem_of_find?_eq_some hfound)

theorem ensures_binaryRule (h : ∀ part, Ensures Normalized (self part)) :
    Ensures Normalized (binaryRule self node) := by
  unfold binaryRule
  dsimp only
  split
  · exact .ok (.primitive _)
  · refine (ensures_optionalType h _).bind fun left hleft => ?_
    refine (ensures_optionalType h _).bind fun right hright => ?_
    split
    · split
      · exact .ok (.primitive _)
      · split
        · exact .ok (.primitive _)
        · exact .ok .unknown
    · split
      · exact .ok (.primitive _)
      · split
        · exact .ok hright
        · exact .ok (normalized_pair hleft hright)
        · exact .ok (normalized_pair hleft hright)
        · exact .ok .unknown

theorem normalized_unaryType (operator : String) : Normalized (unaryType operator) := by
  unfold unaryType
  split
  all_goals first
    | exact .primitive _
    | exact .unknown

theorem normalized_awaited {type : TypeExpr} (h : Normalized type) : Normalized (awaited type) := by
  unfold awaited
  split
  · split
    · exact .named _
    · exact h
  · exact h

/-- The type of a node is in normal form when those of smaller nodes, of names and of calls are. -/
theorem ensures_expressionRule (h : ∀ part, Ensures Normalized (self part))
    (hvariable : ∀ name, Ensures Normalized (variable_ name))
    (hreturned : ∀ name, Ensures Normalized (returned name)) :
    Ensures Normalized (expressionRule scope self variable_ returned node) := by
  unfold expressionRule
  split
  all_goals first
    | exact .ok (.primitive _)
    | exact .ok .unknown
    | exact ensures_optionalType h _
    | exact (ensures_optionalType h _).map fun _ => normalized_awaited
    | exact hvariable _
    | exact ensures_objectRule h hvariable
    | exact ensures_arrayRule h
    | exact .ok (normalized_constructionRule node)
    | exact ensures_callRule h hreturned
    | exact ensures_memberRule h
    | exact ensures_subscriptRule h
    | exact ensures_binaryRule h
    | exact .ok (normalized_unaryType _)
    | skip
  · split
    · exact .ok .unknown
    · exact h _
    · exact .ok (normal_writtenType _).normalized
  · refine (ensures_optionalType h _).bind fun consequence hconsequence => ?_
    refine (ensures_optionalType h _).bind fun alternative halternative => ?_
    exact .ok (normalized_pair hconsequence halternative)

/-- The type of an expression is in normal form, whichever names are being followed. -/
theorem ensures_typeWhile (scope : Scope) (following entered : List String) (node : Node) :
    Ensures Normalized (typeWhile scope following entered node) := by
  rw [typeWhile]
  refine ensures_expressionRule (fun part => ?_) (fun name => ?_) fun name => ?_
  · split
    · exact ensures_typeWhile scope following entered part
    · exact .ok .unknown
  · split
    · exact .ok (.primitive _)
    · split
      · exact .ok .unknown
      · split
        · exact .ok (normal_writtenType _).normalized
        · split
          · exact ensures_typeWhile scope (name :: following) [] _
          · exact .ok .unknown
        · exact .ok .unknown
  · split
    · exact .ok .unknown
    · split
      · exact .ok .unknown
      · split
        · exact ensures_returnRule (fun part => ensures_typeWhile scope following (name :: entered) part) _
        · exact .error
termination_by (scope.unlisted following, scope.unlisted entered, node.size)
decreasing_by
  · exact Prod.Lex.right _ (Prod.Lex.right _ (by assumption))
  · exact Prod.Lex.left _ _ (Scope.unlisted_cons_lt (by assumption) (by assumption))
  · exact Prod.Lex.right _ (Prod.Lex.left _ _ (Scope.unlisted_cons_lt (by assumption) (by assumption)))

end Typing

/-- Unions of types in normal form are in normal form, those of unions are those of all their types, and all
types that are found are in normal form. -/
theorem normalForm_laws :
    (∀ types : List TypeExpr, (∀ type ∈ types, Normalized type) → Normalized (unionOf types)) ∧
      (∀ xs ys : List TypeExpr, xs ≠ [] → ys ≠ [] → (∀ type ∈ xs, Normalized type) →
        (∀ type ∈ ys, Normalized type) →
        unionOf [unionOf xs, unionOf ys] = unionOf (xs ++ ys) ∧
          (unionOf (xs ++ ys) = .unknown ↔ .unknown ∈ xs ++ ys)) ∧
      (∀ node, Normalized (writtenType node)) ∧
      (∀ scope node type, schemaType? scope node = some type → Normalized type) ∧
      ∀ scope node type, typeOf scope node = .ok type → Normalized type := by
  refine ⟨fun _ => normal_unionOf, fun xs ys hxs hys hx hy => ⟨unionOf_pair hx hy hxs hys, ?_⟩,
    fun node => (normal_writtenType node).normalized, fun _ _ _ => normalized_schemaType?,
    fun scope node => Typing.ensures_typeWhile scope [] [] node⟩
  have hall : ∀ type ∈ xs ++ ys, Normalized type := by
    intro type htype
    exact (List.mem_append.1 htype).elim (hx type) (hy type)
  exact unionOf_eq_unknown_iff hall (by simp [hxs])

/-- A choice between a string and nothing. -/
def nullableChoice : Node :=
  .branch {} .ternaryExpression
    [.leaf { role := some .condition } .identifier "x", .leaf { role := some .consequence } .string "'a'",
      .leaf { role := some .alternative } .nullLiteral "null"]

theorem normalForm_laws_nullableChoice :
    typeOf {} nullableChoice = .ok (.union [.string, .null]) ∧ Normalized (.union [.string, .null]) ∧
      unionOf [unionOf [.union [.string, .null]], unionOf [.null, .number]] =
        .union [.string, .null, .number] := by
  have hchoice : typeOf {} nullableChoice = .ok (.union [.string, .null]) := by
    cbv
  obtain ⟨-, hpair, -, -, hfound⟩ := normalForm_laws
  have hnormal : Normalized (.union [.string, .null]) := hfound _ _ _ hchoice
  refine ⟨hchoice, hnormal, ?_⟩
  have hnumbers : ∀ type ∈ [TypeExpr.null, .number], Normalized type := by
    simp only [List.forall_mem_cons, List.not_mem_nil, false_implies, implies_true, and_true]
    exact ⟨.primitive _, .primitive _⟩
  have hunion := hpair [.union [.string, .null]] [.null, .number] (by simp) (by simp)
    (List.forall_mem_singleton.2 hnormal) hnumbers
  exact hunion.1.trans (by decide)

end RouteBinder.Analysis
