import RouteBinder.Analysis.Usage
import RouteBinder.Grammar.Tree
import RouteBinder.Proofs.Analysis.NestedUnions
import RouteBinder.Proofs.Keyed

/-!
# RouteBinder.Proofs.Analysis.Evidence

**Evidence that grows use by use.** What is known of a value can be kept while its uses are looked at one
after another: which signs there were, and the same for each property and for the elements. Each use changes
the evidence at the end of its way into the value (`Evidence.add`), and what the evidence amounts to in the end
(`Evidence.resolve`) is what all usages together agree with (`resolve_collect`).

So the uses can come in any order: the type is the same but for the order of fields, at every level
(`resolve_collect_perm`). Fields are in the order in which their names are met first.
-/

namespace RouteBinder.Analysis

open Source TypeExpr Usage

/-! ### One more usage -/

namespace Usage

variable {usages : List Usage} {usage : Usage} {name : String} {access : Access}

/-- What a usage says of what the access leads to. -/
def along? (access : Access) (usage : Usage) : Option Usage :=
  match usage.path with
  | [] => none
  | first :: rest => if first == access then some { usage with path := rest } else none

theorem inside_eq_filterMap (access : Access) (usages : List Usage) :
    inside access usages = usages.filterMap (along? access) := rfl

theorem inside_concat (access : Access) (usages : List Usage) (usage : Usage) :
    inside access (usages ++ [usage]) = inside access usages ++ (along? access usage).toList := by
  rw [inside_eq_filterMap, List.filterMap_append, inside_eq_filterMap]
  cases h : along? access usage <;> simp [h]

theorem along?_cons (path : List Access) (sign : Option Sign) (first : Access) :
    along? access ⟨first :: path, sign⟩ = if first = access then some ⟨path, sign⟩ else none := by
  simp [along?]

/-- Does the usage have the sign on the value itself, or, of an array, use an element? -/
def showing (usage : Usage) (sign : Sign) : Bool :=
  (usage.path.isEmpty && usage.sign == some sign) ||
    (sign == .array && usage.path.head? == some .element)

/-- Is there such a usage? -/
def shows (usages : List Usage) (sign : Sign) : Bool :=
  usages.any fun usage => usage.showing sign

theorem shows_concat (usages : List Usage) (usage : Usage) (sign : Sign) :
    shows (usages ++ [usage]) sign = (shows usages sign || usage.showing sign) := by
  simp [shows]

theorem shows_array (usages : List Usage) : shows usages .array = tellArray usages := by
  rw [Bool.eq_iff_iff]
  simp only [shows, showing, tellArray, tell, Bool.or_eq_true, List.any_eq_true, beq_self_eq_true,
    Bool.true_and, and_or_left, exists_or]

theorem shows_eq_tell {sign : Sign} (h : sign ≠ .array) : shows usages sign = tell usages sign := by
  simp [shows, showing, tell, beq_eq_false_iff_ne.2 h]

theorem properties_concat (h : property? usage = some name) :
    properties (usages ++ [usage]) =
      if name ∈ properties usages then properties usages else properties usages ++ [name] := by
  have hone : [usage].filterMap property? = [name] := by simp [h]
  have hmem : name ∈ properties usages ↔ name ∈ usages.filterMap property? := mem_distinct
  rw [properties, List.filterMap_append, hone, distinct_concat]
  simp only [hmem]
  rfl

theorem properties_concat_of_none (h : property? usage = none) :
    properties (usages ++ [usage]) = properties usages := by
  simp [properties, h]

theorem mem_properties : name ∈ properties usages ↔ ∃ usage ∈ usages, property? usage = some name := by
  rw [properties, mem_distinct, List.mem_filterMap]

/-- A property that is not used has no usages. -/
theorem inside_property_eq_nil (h : name ∉ properties usages) : inside (.property name) usages = [] := by
  rw [inside_eq_filterMap, List.filterMap_eq_nil_iff]
  intro usage husage
  obtain ⟨path, sign⟩ := usage
  cases path with
  | nil => rfl
  | cons first path =>
      rw [along?_cons, if_neg]
      rintro rfl
      exact h (mem_properties.2 ⟨_, husage, rfl⟩)

end Usage

/-! ### Evidence -/

/-- What the uses of a value say of it, of its properties and of its elements. -/
structure Evidence where
  signs : Sign → Bool := fun _ => false
  nested : List (String × Evidence) := []
  element : Option Evidence := none
  deriving Inhabited

namespace Evidence

/-- The sign has been seen. -/
def note (ev : Evidence) (sign : Sign) : Evidence :=
  { ev with signs := fun other => ev.signs other || sign == other }

/-- The evidence for a property, empty when there is none so far. -/
def child (ev : Evidence) (name : String) : Evidence := (ev.nested.lookup name).getD {}

/-- Puts the evidence for a property in the place of the earlier one, or else at the end. -/
def setChild (ev : Evidence) (name : String) (found : Evidence) : Evidence :=
  { ev with
    nested :=
      if ev.nested.any (·.1 == name) then
        ev.nested.map fun entry => if entry.1 == name then (name, found) else entry
      else ev.nested ++ [(name, found)] }

/-- Takes one more use into account: it goes some way into the value and ends in a sign, or in none. -/
def addAlong (sign : Option Sign) : List Access → Evidence → Evidence
  | [], ev => sign.elim ev ev.note
  | .property name :: path, ev => ev.setChild name (addAlong sign path (ev.child name))
  | .element :: path, ev =>
    { ev.note .array with element := some (addAlong sign path (ev.element.getD {})) }

def add (ev : Evidence) (usage : Usage) : Evidence := addAlong usage.sign usage.path ev

/-- The evidence of all usages, taken one after another. -/
def collect (usages : List Usage) : Evidence := usages.foldl add {}

/-- The type of a value of which nothing is known but its signs. -/
def scalar (signs : Sign → Bool) : TypeExpr :=
  if signs .record then .named "Record<string, unknown>"
  else if signs .number then .number
  else if signs .string then .string
  else if signs .boolean then .boolean
  else .unknown

mutual
/-- The type that the evidence amounts to. An array goes before everything else, then properties. -/
def resolve : Evidence → TypeExpr
  | ⟨signs, nested, none⟩ =>
    if signs .array then
      if signs .number then .array .number
      else if signs .string then .array .string
      else .array .unknown
    else if nested.isEmpty then scalar signs
    else .record (resolveNested nested)
  | ⟨signs, nested, some element⟩ =>
    if signs .array then
      if signs .number || element.signs .number then .array .number
      else if signs .string || element.signs .string then .array .string
      else if element.nested.isEmpty then .array .unknown
      else .array (resolve element)
    else if nested.isEmpty then scalar signs
    else .record (resolveNested nested)

def resolveNested : List (String × Evidence) → List Field
  | [] => []
  | (name, ev) :: rest => ⟨name, resolve ev, false⟩ :: resolveNested rest
end

theorem resolveNested_eq_map (nested : List (String × Evidence)) :
    resolveNested nested = nested.map fun entry => ⟨entry.1, resolve entry.2, false⟩ := by
  induction nested with
  | nil => rfl
  | cons entry rest ih => rw [resolveNested, ih, List.map_cons]

/-- No evidence for the elements is as good as empty evidence for them. -/
theorem resolve_eq (ev : Evidence) :
    ev.resolve =
      if ev.signs .array then
        if ev.signs .number || (ev.element.getD {}).signs .number then .array .number
        else if ev.signs .string || (ev.element.getD {}).signs .string then .array .string
        else if (ev.element.getD {}).nested.isEmpty then .array .unknown
        else .array (ev.element.getD {}).resolve
      else if ev.nested.isEmpty then scalar ev.signs
      else .record (resolveNested ev.nested) := by
  obtain ⟨signs, nested, element⟩ := ev
  cases element <;> simp [resolve]

/-! ### What evidence stands for -/

/-- The evidence says of the value, and of everything that is reached from it, what the usages say. -/
inductive Sums : Evidence → List Usage → Prop
  | intro {ev : Evidence} {usages : List Usage}
      (signs : ∀ sign, ev.signs sign = shows usages sign)
      (names : ev.nested.map Prod.fst = properties usages)
      (nested : ∀ entry ∈ ev.nested, Sums entry.2 (inside (.property entry.1) usages))
      (element : ∀ within ∈ ev.element, Sums within (inside .element usages))
      (noElement : ev.element = none → inside .element usages = []) : Sums ev usages

variable {ev found : Evidence} {usages : List Usage} {sign : Option Sign} {name : String}

theorem sums_nil : Sums {} [] := by
  refine .intro (fun sign => ?_) rfl (by simp) (by simp) fun _ => rfl
  cases sign <;> rfl

theorem Sums.signs (h : Sums ev usages) (sign : Sign) : ev.signs sign = shows usages sign := by
  cases h with
  | intro signs => exact signs sign

theorem Sums.names (h : Sums ev usages) : ev.nested.map Prod.fst = properties usages := by
  cases h with
  | intro _ names => exact names

theorem Sums.nested (h : Sums ev usages) {entry : String × Evidence} (hentry : entry ∈ ev.nested) :
    Sums entry.2 (inside (.property entry.1) usages) := by
  cases h with
  | intro _ _ nested => exact nested entry hentry

theorem Sums.isEmpty_nested (h : Sums ev usages) :
    ev.nested.isEmpty = (properties usages).isEmpty := by
  simp [← h.names]

/-- Where there is no evidence yet, there are no usages yet. -/
theorem Sums.child (h : Sums ev usages) (name : String) :
    Sums (ev.child name) (inside (.property name) usages) := by
  cases hfound : ev.nested.lookup name with
  | some found =>
      simp only [Evidence.child, hfound, Option.getD_some]
      exact h.nested (Keyed.mem_of_lookup hfound)
  | none =>
      simp only [Evidence.child, hfound, Option.getD_none]
      rw [inside_property_eq_nil]
      · exact sums_nil
      · rw [← h.names]
        simp only [List.mem_map, not_exists, not_and]
        intro entry hentry hname
        simpa [hname] using List.lookup_eq_none_iff.1 hfound entry hentry

/-- The same of the elements. -/
theorem Sums.getD_element (h : Sums ev usages) :
    Sums (ev.element.getD {}) (inside .element usages) := by
  cases h with
  | intro _ _ _ element noElement =>
      cases hfound : ev.element with
      | some within => exact element within hfound
      | none =>
          rw [noElement hfound]
          exact sums_nil

theorem names_setChild :
    (ev.setChild name found).nested.map Prod.fst =
      if name ∈ ev.nested.map Prod.fst then ev.nested.map Prod.fst
      else ev.nested.map Prod.fst ++ [name] := by
  have hany : (ev.nested.any (·.1 == name)) = true ↔ name ∈ ev.nested.map Prod.fst := by
    simp
  simp only [setChild, hany]
  split
  · rw [List.map_map]
    refine List.map_congr_left fun entry _ => ?_
    by_cases h : entry.1 = name <;> simp [h]
  · simp

theorem mem_setChild {entry : String × Evidence} (h : entry ∈ (ev.setChild name found).nested) :
    entry = (name, found) ∨ entry ∈ ev.nested ∧ entry.1 ≠ name := by
  simp only [setChild] at h
  split at h
  · obtain ⟨earlier, hearlier, rfl⟩ := List.mem_map.1 h
    by_cases hname : earlier.1 = name <;> simp [hname, hearlier]
  · rename_i hnone
    simp only [List.any_eq_true, beq_iff_eq, not_exists, not_and] at hnone
    simp only [List.mem_append, List.mem_singleton] at h
    cases h with
    | inl hearlier => exact .inr ⟨hearlier, hnone entry hearlier⟩
    | inr hnew => exact .inl hnew

theorem signs_addAlong (path : List Access) (other : Sign) :
    (addAlong sign path ev).signs other = (ev.signs other || Usage.showing ⟨path, sign⟩ other) := by
  cases path with
  | nil => cases sign <;> simp [addAlong, note, showing]
  | cons access path =>
      cases access with
      | property name => simp [addAlong, setChild, showing]
      | element =>
          have hcomm : (other == Sign.array) = (Sign.array == other) := BEq.comm
          simp [addAlong, note, showing, hcomm]

/-- One more use, one more usage. The induction is on the way from the value to the operand: each access
of it leads to evidence for fewer usages, those of what the access leads to. -/
theorem Sums.addAlong (path : List Access) (h : Sums ev usages) :
    Sums (addAlong sign path ev) (usages ++ [⟨path, sign⟩]) := by
  induction path generalizing ev usages with
  | nil =>
      have hinside : ∀ access, inside access (usages ++ [⟨[], sign⟩]) = inside access usages := by
        intro access
        rw [inside_concat]
        exact List.append_nil _
      have hnested : (Evidence.addAlong sign [] ev).nested = ev.nested := by cases sign <;> rfl
      have helement : (Evidence.addAlong sign [] ev).element = ev.element := by cases sign <;> rfl
      cases h with
      | intro signs names nested element noElement =>
          refine .intro (fun other => ?_) ?_ ?_ ?_ ?_
          · rw [signs_addAlong, signs, shows_concat]
          · rw [hnested, names, properties_concat_of_none rfl]
          · simpa only [hnested, hinside]
          · simpa only [helement, hinside]
          · simpa only [helement, hinside]
  | cons access path ih =>
      cases access with
      | property name =>
          have hsame : inside (.property name) (usages ++ [⟨.property name :: path, sign⟩]) =
              inside (.property name) usages ++ [⟨path, sign⟩] := by
            simp [inside_concat, along?_cons]
          have hother : ∀ access, access ≠ .property name →
              inside access (usages ++ [⟨.property name :: path, sign⟩]) = inside access usages := by
            intro access haccess
            simp [inside_concat, along?_cons, haccess.symm]
          refine .intro (fun other => ?_) ?_ (fun entry hentry => ?_) ?_ ?_
          · rw [signs_addAlong, h.signs, shows_concat]
          · rw [Evidence.addAlong, names_setChild, h.names, properties_concat rfl]
          · cases mem_setChild hentry with
            | inl hnew =>
                subst hnew
                rw [hsame]
                exact ih (h.child name)
            | inr hkept =>
                rw [hother _ (by simpa using hkept.2)]
                exact h.nested hkept.1
          all_goals
            rw [hother _ (by simp)]
            cases h with
            | intro _ _ _ element noElement => assumption
      | element =>
          have hsame : inside .element (usages ++ [⟨.element :: path, sign⟩]) =
              inside .element usages ++ [⟨path, sign⟩] := by
            simp [inside_concat, along?_cons]
          refine .intro (fun other => ?_) ?_ (fun entry hentry => ?_) ?_ ?_
          · rw [signs_addAlong, h.signs, shows_concat]
          · rw [properties_concat_of_none rfl]
            exact h.names
          · have hother : inside (.property entry.1) (usages ++ [⟨.element :: path, sign⟩]) =
                inside (.property entry.1) usages := by
              simp [inside_concat, along?_cons]
            rw [hother]
            exact h.nested hentry
          · simp only [Evidence.addAlong, Option.mem_some_iff, forall_eq', hsame]
            exact ih h.getD_element
          · simp [Evidence.addAlong]

/-- All uses, all usages. -/
theorem sums_collect (usages : List Usage) : Sums (collect usages) usages := by
  induction usages using List.reverseRecOn with
  | nil => exact sums_nil
  | append_singleton usages usage ih =>
      simp only [collect, List.foldl_append, List.foldl_cons, List.foldl_nil]
      exact ih.addAlong usage.path

/-! ### What evidence amounts to -/

theorem Sums.resolve_eq_unknown (h : Sums ev []) : ev.resolve = .unknown := by
  have hsigns : ∀ sign, ev.signs sign = false := h.signs
  have hnested : ev.nested = [] := List.map_eq_nil_iff.1 h.names
  obtain ⟨signs, nested, element⟩ := ev
  cases element <;> simp_all [resolve, scalar]

theorem depth_inside {access : Access} {n : Nat} (h : ∀ usage ∈ usages, usage.path.length < n + 1) :
    ∀ usage ∈ inside access usages, usage.path.length < n := by
  intro usage husage
  rw [inside_eq_filterMap] at husage
  obtain ⟨⟨path, sign⟩, hmem, halong⟩ := List.mem_filterMap.1 husage
  cases path with
  | nil => simp [along?] at halong
  | cons first path =>
      rw [along?_cons] at halong
      have hlength := h _ hmem
      split at halong
      · cases halong
        simpa using hlength
      · cases halong

/-- Evidence amounts to what the usages agree with, when none of them leads too deep into the value. -/
theorem Sums.resolve_eq {n : Nat} (h : Sums ev usages)
    (hn : ∀ usage ∈ usages, usage.path.length < n) : ev.resolve = typeWithin n usages := by
  induction n generalizing ev usages with
  | zero =>
      have hnone : usages = [] := List.eq_nil_iff_forall_not_mem.2 fun usage husage =>
        absurd (hn usage husage) (Nat.not_lt_zero _)
      subst hnone
      exact h.resolve_eq_unknown
  | succ n ih =>
      have hfields : resolveNested ev.nested = (properties usages).map fun name =>
          ⟨name, typeWithin n (inside (.property name) usages), false⟩ := by
        rw [resolveNested_eq_map, ← h.names, List.map_map]
        refine List.map_congr_left fun entry hentry => ?_
        simp [ih (h.nested hentry) (depth_inside hn)]
      have helement := h.getD_element
      rw [resolve_eq, typeWithin, hfields, h.isEmpty_nested, helement.isEmpty_nested, scalar,
        ih helement (depth_inside hn)]
      simp [h.signs, helement.signs, shows_array, shows_eq_tell]

theorem length_lt {usage : Usage} (h : usage ∈ usages) : usage.path.length < depth usages + 1 := by
  induction usages using List.reverseRecOn with
  | nil => simp at h
  | append_singleton usages last ih =>
      have hdepth : depth (usages ++ [last]) = max (depth usages) last.path.length := by
        simp [depth, List.foldl_append]
      rw [hdepth]
      simp only [List.mem_append, List.mem_singleton] at h
      cases h with
      | inl hearlier =>
          have hlt := ih hearlier
          omega
      | inr hlast =>
          subst hlast
          omega

/-- The type that the usages agree with, looking as deep into the value as any of them leads. -/
def agreedType (usages : List Usage) : TypeExpr := typeWithin (depth usages + 1) usages

theorem Sums.resolve_eq_agreedType (h : Sums ev usages) : ev.resolve = agreedType usages :=
  h.resolve_eq fun _ => length_lt

/-- Evidence that was collected use by use amounts to what all usages together agree with. -/
theorem resolve_collect (usages : List Usage) : (collect usages).resolve = agreedType usages :=
  (sums_collect usages).resolve_eq_agreedType

/-- The record of the properties of a value has what is known of each. -/
theorem recordOf?_eq (usages : List Usage) :
    recordOf? usages =
      if (properties usages).isEmpty then none
      else some (.record ((properties usages).map fun name =>
        ⟨name, agreedType (inside (.property name) usages), false⟩)) := by
  have hdepth : ∀ name, ∀ usage ∈ inside (.property name) usages,
      usage.path.length < depth usages + 1 := by
    intro name usage husage
    exact Nat.lt_succ_of_lt (depth_inside (fun _ => length_lt) usage husage)
  have htype : ∀ name, typeWithin (depth usages + 1) (inside (.property name) usages) =
      agreedType (inside (.property name) usages) := by
    intro name
    rw [← resolve_collect, (sums_collect _).resolve_eq (hdepth name)]
  simp only [recordOf?, htype]

theorem recordOf?_eq_resolveNested (usages : List Usage) :
    recordOf? usages =
      if (collect usages).nested.isEmpty then none
      else some (.record (resolveNested (collect usages).nested)) := by
  have hsums := sums_collect usages
  rw [recordOf?_eq, hsums.isEmpty_nested, resolveNested_eq_map, ← hsums.names, List.map_map]
  congr 3
  refine List.map_congr_left fun entry hentry => ?_
  simp [(hsums.nested hentry).resolve_eq_agreedType]

end Evidence

/-! ### Uses in any order -/

/-- The same type but for the order of fields, at every level. -/
inductive SameUpToOrder : TypeExpr → TypeExpr → Prop
  | refl (type : TypeExpr) : SameUpToOrder type type
  | array {element other : TypeExpr} (h : SameUpToOrder element other) :
      SameUpToOrder (.array element) (.array other)
  | record {others : List Field} (pairs : List (Field × Field))
      (order : others.Perm (pairs.map Prod.snd))
      (labels : ∀ pair ∈ pairs, pair.1.name = pair.2.name ∧ pair.1.optional = pair.2.optional)
      (types : ∀ pair ∈ pairs, SameUpToOrder pair.1.type pair.2.type) :
      SameUpToOrder (.record (pairs.map Prod.fst)) (.record others)

theorem SameUpToOrder.ite {condition : Prop} [Decidable condition] {type other type' other' : TypeExpr}
    (hthen : SameUpToOrder type other) (helse : SameUpToOrder type' other') :
    SameUpToOrder (if condition then type else type') (if condition then other else other') := by
  split
  · exact hthen
  · exact helse

theorem SameUpToOrder.record_map {names others : List String} {types types' : String → TypeExpr}
    (order : names.Perm others) (h : ∀ name, SameUpToOrder (types name) (types' name)) :
    SameUpToOrder (.record (names.map fun name => ⟨name, types name, false⟩))
      (.record (others.map fun name => ⟨name, types' name, false⟩)) := by
  have hpairs := @SameUpToOrder.record (others.map fun name => ⟨name, types' name, false⟩)
    (names.map fun name => (⟨name, types name, false⟩, ⟨name, types' name, false⟩))
  simp only [List.map_map, List.forall_mem_map] at hpairs
  exact hpairs (order.symm.map _) (by simp) fun name _ => h name

open Evidence

section Order

variable {usages others : List Usage}

theorem tell_perm (h : usages.Perm others) (sign : Sign) : tell usages sign = tell others sign :=
  h.any_eq

theorem tellArray_perm (h : usages.Perm others) : tellArray usages = tellArray others := by
  rw [tellArray, tellArray, tell_perm h, h.any_eq]

theorem inside_perm (h : usages.Perm others) (access : Access) :
    (inside access usages).Perm (inside access others) :=
  h.filterMap _

theorem properties_perm (h : usages.Perm others) : (properties usages).Perm (properties others) := by
  refine (List.perm_ext_iff_of_nodup (nodup_distinct _) (nodup_distinct _)).2 fun name => ?_
  simp only [mem_distinct]
  exact (h.filterMap _).mem_iff

theorem isEmpty_properties_perm (h : usages.Perm others) :
    (properties usages).isEmpty = (properties others).isEmpty := by
  rw [Bool.eq_iff_iff, List.isEmpty_iff_length_eq_zero, List.isEmpty_iff_length_eq_zero,
    (properties_perm h).length_eq]

theorem depth_perm (h : usages.Perm others) : depth usages = depth others :=
  h.foldl_eq' (fun _ _ _ _ _ => by omega) 0

/-- The order of the usages orders the fields, and nothing else. The induction is on the depth that is
looked into the value. -/
theorem typeWithin_perm (n : Nat) (h : usages.Perm others) :
    SameUpToOrder (typeWithin n usages) (typeWithin n others) := by
  induction n generalizing usages others with
  | zero => exact .refl _
  | succ n ih =>
      have helements := inside_perm h .element
      simp only [typeWithin, ← tellArray_perm h, ← isEmpty_properties_perm h,
        ← isEmpty_properties_perm helements, ← tell_perm h, ← tell_perm helements]
      refine .ite ?_ (.ite ?_ (.refl _))
      · exact .ite (.refl _) (.ite (.refl _) (.ite (.refl _) (.array (ih helements))))
      · exact .record_map (properties_perm h) fun name => ih (inside_perm h (.property name))
end Order

/-- What the use at a spot says of the value that is used. -/
def spotUsage (spot : Spot) : Usage := usageOf spot.node spot.above

/-- However the uses of a value are ordered, the evidence amounts to the same type but for the order of
fields; and one use that shows an array is enough for an array. The type is the one that the usages agree
with. -/
theorem resolve_collect_perm {spots others : List Spot} (h : spots.Perm others) :
    let usages := spots.map spotUsage
    SameUpToOrder (collect usages).resolve (collect (others.map spotUsage)).resolve ∧
      ((∃ spot ∈ spots, (collect [spotUsage spot]).signs .array) →
        ∃ element, (collect usages).resolve = .array element) ∧
      (collect usages).resolve = agreedType usages ∧
      recordOf? usages =
        if (collect usages).nested.isEmpty then none
        else some (.record (resolveNested (collect usages).nested)) := by
  intro usages
  have hperm : usages.Perm (others.map spotUsage) := h.map spotUsage
  refine ⟨?_, ?_, resolve_collect usages, recordOf?_eq_resolveNested usages⟩
  · rw [resolve_collect, resolve_collect, agreedType, agreedType, ← depth_perm hperm]
    exact typeWithin_perm _ hperm
  · intro ⟨spot, hspot, harray⟩
    have hshows : (collect usages).signs .array = true := by
      rw [(sums_collect _).signs] at harray ⊢
      simp only [shows, List.any_cons, List.any_nil, Bool.or_false] at harray
      exact List.any_eq_true.2 ⟨_, List.mem_map_of_mem hspot, harray⟩
    rw [resolve_eq, if_pos hshows]
    split
    · exact ⟨_, rfl⟩
    · split
      · exact ⟨_, rfl⟩
      · split <;> exact ⟨_, rfl⟩

def tagUses : String := "if (tags) f(tags.note); tags[0].name.trim(); tags[0].id += 1;"

/-- The record that is used in elements. -/
def tagFields : List Field := [⟨"name", .string, false⟩, ⟨"id", .number, false⟩]

def isTagged (program : Node) : Bool :=
  let spots := usesOf program program "tags"
  agreedType (spots.map spotUsage) = .array (.record tagFields) ∧
    agreedType (spots.reverse.map spotUsage) = .array (.record tagFields.reverse) ∧
    ∃ spot ∈ spots, shows [spotUsage spot] .array

set_option maxRecDepth 1000000 in
/-- Two of the uses show an array, whose elements have their fields in the order of these uses. -/
theorem resolve_collect_perm_tags : ∃ program, Grammar.parse? tagUses = some program ∧
    let spots := usesOf program program "tags"
    (collect (spots.map spotUsage)).resolve = .array (.record tagFields) ∧
      (collect (spots.reverse.map spotUsage)).resolve = .array (.record tagFields.reverse) ∧
      (∃ spot ∈ spots, (collect [spotUsage spot]).signs .array) ∧
      spots.Perm spots.reverse ∧
      SameUpToOrder (collect (spots.map spotUsage)).resolve
        (collect (spots.reverse.map spotUsage)).resolve := by
  have hcheck : (Grammar.parse? tagUses).any isTagged = true := by decide +kernel
  obtain ⟨program, hparse, htagged⟩ := (Option.any_eq_true _ _).1 hcheck
  simp only [isTagged, decide_eq_true_eq, ← resolve_collect] at htagged
  have hperm := (List.reverse_perm (usesOf program program "tags")).symm
  obtain ⟨hfirst, hreverse, spot, hspot, harray⟩ := htagged
  refine ⟨program, hparse, hfirst, hreverse, ⟨spot, hspot, ?_⟩, hperm, (resolve_collect_perm hperm).1⟩
  rw [(sums_collect _).signs, harray]

end RouteBinder.Analysis
