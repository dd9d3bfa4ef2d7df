import RouteBinder.Analysis.Discovery
import RouteBinder.Analysis.Input
import RouteBinder.Proofs.Analysis.Evidence

/-!
# RouteBinder.Proofs.Analysis.DestructuredFields

**Fields for destructured properties.** A handler can take its payload apart and so bind a property of it to a
variable, which need not have the name of the property. The record that is inferred has a field for the property,
and its type is what the uses of the *name of the property* amount to (`inputType_destructured`).

These are the uses of the variable when it has the same name. For `{ count: n }` they are not: what is done
with `n` tells nothing, and what is done with an unrelated `count` does (`inputType_ne_renamed`).
-/

namespace RouteBinder.Analysis

open Source TypeExpr Usage Evidence

/-! ### Entries of patterns -/

/-- The variable that a target of a pattern is, if it is one, with or without a default value. -/
def targetVariable? (target : Node) : Option String :=
  match target.kind with
  | .identifier => some target.text
  | .assignmentPattern => ((target.field? .left).filter (·.kind == .identifier)).map Node.text
  | _ => none

/-- The property that an entry of an object pattern takes, and the variable that it binds it to: the same name
twice, unless the two are separated by a colon. -/
def entryVariable? (entry : Node) : Option (String × String) :=
  match entry.kind with
  | .shorthandPropertyIdentifierPattern => some (entry.text, entry.text)
  | .pairPattern =>
    match entry.field? .key, (entry.field? .value).bind targetVariable? with
    | some key, some name => some (Text.trimQuotes key.text, name)
    | _, _ => none
  | .objectAssignmentPattern => (entry.field? .left).map fun left => (left.text, left.text)
  | _ => none

theorem mem_patternKeys {pattern entry : Node} {key name : String}
    (hentry : entry ∈ pattern.namedChildren) (h : entryVariable? entry = some (key, name)) :
    key ∈ pattern.patternKeys := by
  refine List.mem_filterMap.2 ⟨entry, hentry, ?_⟩
  rw [entryVariable?] at h
  cases hkind : entry.kind with
  | shorthandPropertyIdentifierPattern =>
      simp only [hkind, Option.some.injEq, Prod.mk.injEq] at h
      simp [h.1]
  | pairPattern =>
      simp only [hkind] at h
      split at h
      · rename_i found _ hfound _
        simp only [Option.some.injEq, Prod.mk.injEq] at h
        simp [hfound, h.1]
      · cases h
  | objectAssignmentPattern =>
      simp only [hkind, Option.map_eq_some_iff, Prod.mk.injEq] at h
      obtain ⟨left, hleft, hkey, -⟩ := h
      simp [hleft, hkey]
  | _ => simp [hkind] at h

/-- The properties and variables of the object patterns whose values satisfy `isPayload`. -/
def Payload.variablesByKey (isPayload : Node → Bool) (declarators : List Node) : List (String × String) :=
  declarators.flatMap fun declarator =>
    match declarator.field? .name, declarator.field? .value with
    | some pattern, some value =>
      if pattern.kind == .objectPattern && isPayload value then
        pattern.namedChildren.filterMap entryVariable?
      else []
    | _, _ => []

theorem Payload.mem_keysOf {isPayload : Node → Bool} {declarators : List Node} {key name : String}
    (h : (key, name) ∈ variablesByKey isPayload declarators) : key ∈ keysOf isPayload declarators := by
  obtain ⟨declarator, hdeclarator, h⟩ := List.mem_flatMap.1 h
  refine List.mem_flatMap.2 ⟨declarator, hdeclarator, ?_⟩
  cases hpattern : declarator.field? .name with
  | none => simp [hpattern] at h
  | some pattern =>
      cases hvalue : declarator.field? .value with
      | none => simp [hpattern, hvalue] at h
      | some value =>
          simp only [hpattern, hvalue] at h ⊢
          split at h
          · rename_i hpayload
            obtain ⟨entry, hentry, hvariable⟩ := List.mem_filterMap.1 h
            rw [if_pos hpayload]
            exact mem_patternKeys hentry hvariable
          · cases h

theorem Payload.isVariableOf_distinct (holders : List String) :
    isVariableOf (distinct holders) = isVariableOf holders := by
  have hcontains : ∀ name, (distinct holders).contains name = holders.contains name := by
    intro name
    rw [Bool.eq_iff_iff, List.contains_iff_mem, List.contains_iff_mem, mem_distinct]
  funext value
  simp only [isVariableOf, hcontains]

namespace HandlerContext

/-- The properties of the payload that a handler binds to variables, and these variables. -/
def boundProperties (cx : HandlerContext) : List (String × String) :=
  match cx.request, cx.function.field? .body with
  | some request, some body =>
    let declarators := body.ownNodes.filter (·.kind == .variableDeclarator)
    Payload.variablesByKey (isPayloadRead request) declarators ++
      Payload.variablesByKey (Payload.isVariableOf cx.payload.holders) declarators
  | _, _ => []

theorem mem_destructured {function : Node} {module : Scope} {key name : String}
    (h : (key, name) ∈ (ofFunction function module).boundProperties) :
    key ∈ (ofFunction function module).payload.destructured := by
  cases hrequest : requestName? function with
  | none => simp [boundProperties, ofFunction, hrequest] at h
  | some request =>
      cases hbody : function.field? .body with
      | none => simp [boundProperties, ofFunction, hbody] at h
      | some body =>
          simp only [boundProperties, ofFunction, Payload.ofFunction, hrequest, hbody,
            Payload.isVariableOf_distinct, List.mem_append] at h
          simp only [ofFunction, Payload.ofFunction, hrequest, hbody, mem_distinct, List.mem_append]
          exact h.imp Payload.mem_keysOf Payload.mem_keysOf

theorem nodup_destructured {function : Node} {module : Scope} :
    (ofFunction function module).payload.destructured.Nodup := by
  simp only [ofFunction, Payload.ofFunction]
  split
  · exact nodup_distinct _
  · exact List.nodup_nil

end HandlerContext

/-! ### Their fields -/

namespace Usage

variable {usages : List Usage} {key : String}

theorem inside_append (access : Access) (usages others : List Usage) :
    inside access (usages ++ others) = inside access usages ++ inside access others :=
  List.filterMap_append

theorem inside_under (access other : Access) (usages : List Usage) :
    inside access (usages.map (under other)) = if other = access then usages else [] := by
  rw [inside_eq_filterMap, List.filterMap_map]
  by_cases h : other = access
  · have halong : along? access ∘ under other = some := by
      funext usage
      simp [along?, under, h]
    rw [halong, List.filterMap_some, if_pos h]
  · have halong : along? access ∘ under other = fun _ => none := by
      funext usage
      simp [along?, under, h]
    rw [halong, if_neg h]
    simp

/-- What is told of one of several properties, each with its own usages. -/
theorem inside_flatMap_under {names : List String} (hnodup : names.Nodup) (told : String → List Usage)
    (key : String) :
    inside (.property key) (names.flatMap fun name => (told name).map (under (.property name))) =
      if key ∈ names then told key else [] := by
  induction names with
  | nil => rfl
  | cons name names ih =>
      rw [List.nodup_cons] at hnodup
      rw [List.flatMap_cons, inside_append, inside_under, ih hnodup.2]
      by_cases h : key = name
      · subst h
        simp [hnodup.1]
      · simp [h, Ne.symm h]

/-- A property that is used has a field, whose type is that of the evidence for it. -/
theorem mem_fields_of_recordOf? (h : key ∈ properties usages) :
    ∃ fields, recordOf? usages = some (.record fields) ∧ (fields.map FieldOf.name).Nodup ∧
      ⟨key, (collect (inside (.property key) usages)).resolve, false⟩ ∈ fields := by
  have hne : (properties usages).isEmpty = false := by
    rw [List.isEmpty_eq_false_iff_exists_mem]
    exact ⟨key, h⟩
  refine ⟨_, by simp only [recordOf?_eq, hne]; rfl, ?_, List.mem_map.2 ⟨key, h, by rw [resolve_collect]⟩⟩
  have hnames : (FieldOf.name ∘ fun name => (⟨name, agreedType (inside (.property name) usages),
      false⟩ : Field)) = id := rfl
  rw [List.map_map, hnames, List.map_id]
  exact nodup_distinct _

end Usage

section Handler

variable {function body : Node} {module : Scope} {key name : String}

/-- The uses of destructured properties, each searched by the name of the property. -/
def destructuredUsages (cx : HandlerContext) (body : Node) : List Usage :=
  cx.payload.destructured.flatMap fun name =>
    ({} :: usagesOf cx.function body name).map (under (.property name))

/-- The uses of variables that hold the payload. -/
def holderUsages (cx : HandlerContext) (body : Node) : List Usage :=
  cx.payload.holders.flatMap (usagesOf cx.function body)

theorem usedType?_eq {cx : HandlerContext} (hbody : cx.function.field? .body = some body) :
    usedType? cx = recordOf? (destructuredUsages cx body ++ holderUsages cx body) := by
  rw [usedType?, hbody]
  rfl

/-- For a destructured property count the uses of its own name, and then those in which it is read through a
variable for the whole payload. -/
theorem mem_fields_usedType? (cx : HandlerContext) (hbody : cx.function.field? .body = some body)
    (hnodup : cx.payload.destructured.Nodup) (hkey : key ∈ cx.payload.destructured) :
    ∃ fields, usedType? cx = some (.record fields) ∧ (fields.map FieldOf.name).Nodup ∧
      ⟨key, (collect (usagesOf cx.function body key ++
        inside (.property key) (holderUsages cx body))).resolve, false⟩ ∈ fields := by
  have hinside : inside (.property key) (destructuredUsages cx body ++ holderUsages cx body) =
      {} :: (usagesOf cx.function body key ++ inside (.property key) (holderUsages cx body)) := by
    rw [inside_append, destructuredUsages,
      inside_flatMap_under hnodup (fun name => {} :: usagesOf cx.function body name), if_pos hkey,
      List.cons_append]
  have hused : key ∈ properties (destructuredUsages cx body ++ holderUsages cx body) := by
    by_contra hunused
    rw [inside_property_eq_nil hunused] at hinside
    cases hinside
  obtain ⟨fields, hfields, hnames, hmem⟩ := mem_fields_of_recordOf? hused
  refine ⟨fields, (usedType?_eq hbody).trans hfields, hnames, ?_⟩
  -- a usage without a path and a sign adds nothing to the evidence
  rw [hinside] at hmem
  exact hmem

/-- The handler's input type comes from how its payload is used. A property of the payload is bound to a
variable, and is not read through a variable for the whole payload. -/
structure BindsProperty (function body : Node) (module : Scope) (key name : String) : Prop where
  hasBody : function.field? .body = some body
  notValidated : informative (validatedType? (.ofFunction function module)) = none
  notAnnotated : informative (helperType? (.ofFunction function module)) = none
  entry : (key, name) ∈ (HandlerContext.ofFunction function module).boundProperties
  unread : ∀ usage ∈ holderUsages (.ofFunction function module) body, property? usage ≠ some key

/-- The record that is inferred has one field for the property, and its type is that of the uses of the
property's name. It is that of the uses of the variable exactly when these amount to the same type. -/
theorem inputType_destructured (verb : String) (h : BindsProperty function body module key name) :
    ∃ fields, inputType (.ofFunction function module) verb = .record fields ∧
      (fields.map FieldOf.name).Nodup ∧
      ⟨key, (collect (usagesOf function body key)).resolve, false⟩ ∈ fields ∧
      (⟨key, (collect (usagesOf function body name)).resolve, false⟩ ∈ fields ↔
        (collect (usagesOf function body name)).resolve =
          (collect (usagesOf function body key)).resolve) := by
  have hunread : key ∉ properties (holderUsages (.ofFunction function module) body) := by
    intro hread
    obtain ⟨usage, husage, hproperty⟩ := mem_properties.1 hread
    exact h.unread usage husage hproperty
  obtain ⟨fields, hused, hnames, hmem⟩ :=
    mem_fields_usedType? (.ofFunction function module) h.hasBody HandlerContext.nodup_destructured
      (HandlerContext.mem_destructured h.entry)
  rw [inside_property_eq_nil hunread, List.append_nil] at hmem
  refine ⟨fields, ?_, hnames, hmem, fun hvariable => ?_, fun hsame => ?_⟩
  · rw [inputType, h.notValidated, h.notAnnotated, hused]
    rfl
  · have hfield := List.inj_on_of_nodup_map hnames hvariable hmem rfl
    exact congrArg FieldOf.type hfield
  · rw [hsame]
    exact hmem

end Handler

/-! ### A property and its variable -/

/-- There is a handler that takes just one property from its payload, into the variable, with its field and with
what the uses of the variable amount to. -/
def bindsAs (key name : String) (field : Field) (type : TypeExpr) (program : Node) : Bool :=
  (discoverHandlers program).any fun site =>
    let cx := HandlerContext.ofFunction site.function (.ofModule program)
    (site.function.field? .body).any fun body =>
      (informative (validatedType? cx)).isNone && (informative (helperType? cx)).isNone &&
        cx.boundProperties = [(key, name)] && (holderUsages cx body).isEmpty &&
        inputType cx site.verb = .record [field] && agreedType (usagesOf site.function body name) = type

theorem exists_bindsProperty {source key name : String} {field : Field} {type : TypeExpr}
    (h : (Grammar.parse? source).any (bindsAs key name field type) = true) :
    ∃ program site body, Grammar.parse? source = some program ∧ site ∈ discoverHandlers program ∧
      BindsProperty site.function body (.ofModule program) key name ∧
      (HandlerContext.ofFunction site.function (.ofModule program)).boundProperties = [(key, name)] ∧
      inputType (.ofFunction site.function (.ofModule program)) site.verb = .record [field] ∧
      (collect (usagesOf site.function body name)).resolve = type := by
  obtain ⟨program, hparse, h⟩ := (Option.any_eq_true _ _).1 h
  obtain ⟨site, hsite, h⟩ := List.any_eq_true.1 h
  obtain ⟨body, hbody, h⟩ := (Option.any_eq_true _ _).1 h
  simp only [Bool.and_eq_true, Option.isNone_iff_eq_none, decide_eq_true_eq, List.isEmpty_iff] at h
  obtain ⟨⟨⟨⟨⟨hvalidated, hannotated⟩, hbound⟩, hholders⟩, hinput⟩, htype⟩ := h
  refine ⟨program, site, body, hparse, hsite, ?_, hbound, hinput, (resolve_collect _).trans htype⟩
  exact ⟨hbody, hvalidated, hannotated, by simp [hbound], by simp [hholders]⟩

/-- A handler that takes a property with a default value. -/
def defaultSource : String :=
  "export async function POST(req): T \x7b\n  const \x7b count = 1 \x7d = await req.json();\n" ++
    "  return count * 2;\n\x7d\n"

set_option maxRecDepth 1000000 in
/-- Here the variable has the name of the property, and the field is the number that it is used as. -/
theorem inputType_destructured_default : ∃ program site body,
    Grammar.parse? defaultSource = some program ∧ site ∈ discoverHandlers program ∧
      BindsProperty site.function body (.ofModule program) "count" "count" ∧
      inputType (.ofFunction site.function (.ofModule program)) site.verb =
        .record [⟨"count", .number, false⟩] ∧
      ∃ fields, inputType (.ofFunction site.function (.ofModule program)) site.verb = .record fields ∧
        ⟨"count", (collect (usagesOf site.function body "count")).resolve, false⟩ ∈ fields := by
  have hcheck : (Grammar.parse? defaultSource).any
      (bindsAs "count" "count" ⟨"count", .number, false⟩ .number) = true := by
    decide +kernel
  obtain ⟨program, site, body, hparse, hsite, hbinds, -, hinput, -⟩ := exists_bindsProperty hcheck
  obtain ⟨fields, hfields, -, -, hvariable⟩ := inputType_destructured site.verb hbinds
  exact ⟨program, site, body, hparse, hsite, hbinds, hinput, fields, hfields, hvariable.2 rfl⟩

/-- A handler that has another variable with the name of the property that it takes. -/
def renamedSource : String :=
  "export async function POST(req): T \x7b\n  const \x7b count: n \x7d = await req.json();\n" ++
    "  const count = 'x';\n  count.trim();\n  return n * 2;\n\x7d\n"

set_option maxRecDepth 1000000 in
/-- The property is a number, as its only variable says, and the field is a string. -/
theorem inputType_ne_renamed : ∃ program site body,
    Grammar.parse? renamedSource = some program ∧ site ∈ discoverHandlers program ∧
      BindsProperty site.function body (.ofModule program) "count" "n" ∧
      (HandlerContext.ofFunction site.function (.ofModule program)).boundProperties = [("count", "n")] ∧
      (collect (usagesOf site.function body "n")).resolve = .number ∧
      ∀ fields, inputType (.ofFunction site.function (.ofModule program)) site.verb = .record fields →
        ⟨"count", (collect (usagesOf site.function body "n")).resolve, false⟩ ∉ fields := by
  have hcheck : (Grammar.parse? renamedSource).any
      (bindsAs "count" "n" ⟨"count", .string, false⟩ .number) = true := by
    decide +kernel
  obtain ⟨program, site, body, hparse, hsite, hbinds, hbound, hinput, htype⟩ := exists_bindsProperty hcheck
  refine ⟨program, site, body, hparse, hsite, hbinds, hbound, htype, fun fields hfields => ?_⟩
  rw [hinput] at hfields
  cases hfields
  rw [htype]
  decide

end RouteBinder.Analysis
