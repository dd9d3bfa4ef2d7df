import RouteBinder.Proofs.Emit.CombinedImports

/-!
# RouteBinder.Proofs.Emit.GroupedImports

**Bringing imports together as grouping.** The imports of a list fall into groups, one for each module, in
the order in which the modules come up first. A line of the combined list is its group, folded into the
first import of it (`foldl_addImport_eq_grouped`). What a line has therefore only depends on its group, and
lines that are brought together again, with further imports behind them, go on where they were left
(`combineImports_grouping`).

A line binds what its group binds, under the same names. Only a second name for the module as a namespace
has no place in it (`mem_bindings_combineImports_iff`).
-/

namespace RouteBinder.Emit

open FileSystem Route

variable {specs : List ImportSpec} {spec new : ImportSpec} {target : Option Path}

/-! ### Groups -/

/-- The one import that a group becomes. -/
def mergeAll : List ImportSpec → ImportSpec
  | [] => default
  | first :: rest => rest.foldl mergeInto first

/-- The imports from a module. -/
def groupOf (specs : List ImportSpec) (specifier : String) : List ImportSpec :=
  specs.filter (·.specifier == specifier)

/-- One import for each group, in the order of first appearance. -/
def grouped (specs : List ImportSpec) : List ImportSpec :=
  (specs.map ImportSpec.specifier).eraseDups.map fun specifier => mergeAll (groupOf specs specifier)

theorem mergeAll_append (h : specs ≠ []) : mergeAll (specs ++ [new]) = mergeInto (mergeAll specs) new := by
  obtain ⟨first, rest, rfl⟩ := List.exists_cons_of_ne_nil h
  exact List.foldl_append

/-- What taking in one import keeps, taking in several ones keeps. -/
theorem foldl_mergeInto_of_kept {α : Type} {part : ImportSpec → α}
    (h : ∀ into new, part (mergeInto into new) = part into) (rest : List ImportSpec)
    (first : ImportSpec) : part (rest.foldl mergeInto first) = part first := by
  induction rest generalizing first with
  | nil => rfl
  | cons new rest ih => rw [List.foldl_cons, ih, h]

theorem typeOnly_foldl_mergeInto (rest : List ImportSpec) (first : ImportSpec) :
    (rest.foldl mergeInto first).typeOnly = (first.typeOnly && rest.all (·.typeOnly)) := by
  induction rest generalizing first with
  | nil => simp
  | cons new rest ih =>
      rw [List.foldl_cons, ih, List.all_cons, ← Bool.and_assoc]
      rfl

theorem mem_groupOf {specifier : String} :
    spec ∈ groupOf specs specifier ↔ spec ∈ specs ∧ spec.specifier = specifier := by
  simp [groupOf]

theorem groupOf_ne_nil {specifier : String} (h : specifier ∈ specs.map ImportSpec.specifier) :
    groupOf specs specifier ≠ [] := by
  obtain ⟨spec, hspec, rfl⟩ := List.mem_map.1 h
  exact List.ne_nil_of_mem (mem_groupOf.2 ⟨hspec, rfl⟩)

theorem specifier_mergeAll_groupOf {specifier : String}
    (h : specifier ∈ specs.map ImportSpec.specifier) :
    (mergeAll (groupOf specs specifier)).specifier = specifier := by
  obtain ⟨first, rest, hgroup⟩ := List.exists_cons_of_ne_nil (groupOf_ne_nil h)
  have hfirst : first ∈ groupOf specs specifier := by simp [hgroup]
  rw [hgroup, mergeAll, foldl_mergeInto_of_kept specifier_mergeInto]
  exact (mem_groupOf.1 hfirst).2

/-- A group is for types only when all imports in it are. -/
theorem typeOnly_mergeAll_groupOf {specifier : String}
    (h : specifier ∈ specs.map ImportSpec.specifier) :
    (mergeAll (groupOf specs specifier)).typeOnly = true ↔
      ∀ spec ∈ specs, spec.specifier = specifier → spec.typeOnly = true := by
  have hall : (mergeAll (groupOf specs specifier)).typeOnly =
      (groupOf specs specifier).all (·.typeOnly) := by
    obtain ⟨first, rest, hgroup⟩ := List.exists_cons_of_ne_nil (groupOf_ne_nil h)
    rw [hgroup, mergeAll, typeOnly_foldl_mergeInto, List.all_cons]
  simp only [hall, List.all_eq_true, mem_groupOf, and_imp]

/-! ### Lines are groups -/

theorem map_specifier_grouped (specs : List ImportSpec) :
    (grouped specs).map ImportSpec.specifier = (specs.map ImportSpec.specifier).eraseDups := by
  rw [grouped, List.map_map]
  refine (List.map_congr_left fun specifier hspecifier => ?_).trans (List.map_id _)
  exact specifier_mergeAll_groupOf (List.mem_eraseDups.1 hspecifier)

theorem eraseDups_concat (names : List String) (name : String) :
    (names ++ [name]).eraseDups =
      if name ∈ names then names.eraseDups else names.eraseDups ++ [name] := by
  rw [List.eraseDups_append, List.removeAll, List.filter_cons, List.filter_nil]
  by_cases h : name ∈ names <;> simp [h, List.eraseDups_cons]

/-- One more import goes into the group of its module. -/
theorem groupOf_concat (specs : List ImportSpec) (new : ImportSpec) (specifier : String) :
    groupOf (specs ++ [new]) specifier =
      groupOf specs specifier ++ if new.specifier == specifier then [new] else [] := by
  rw [groupOf, groupOf, List.filter_append, List.filter_cons, List.filter_nil]

theorem grouped_concat (specs : List ImportSpec) (new : ImportSpec) :
    grouped (specs ++ [new]) = addImport (grouped specs) new := by
  have hmem : new.specifier ∈ (grouped specs).map ImportSpec.specifier ↔
      new.specifier ∈ specs.map ImportSpec.specifier := by
    rw [map_specifier_grouped, List.mem_eraseDups]
  rw [grouped, List.map_append, List.map_singleton, eraseDups_concat]
  by_cases hnew : new.specifier ∈ specs.map ImportSpec.specifier
  -- The line of the module takes the import in, and the other groups stay.
  · obtain ⟨line, hline, heq⟩ := List.mem_map.1 (hmem.2 hnew)
    rw [if_pos hnew, addImport_of_mem hline heq, grouped, List.map_map]
    refine List.map_congr_left fun specifier hspecifier => ?_
    have hspecifier := List.mem_eraseDups.1 hspecifier
    rw [Function.comp_apply, specifier_mergeAll_groupOf hspecifier, groupOf_concat]
    by_cases hsame : new.specifier = specifier
    · simp [hsame, mergeAll_append (groupOf_ne_nil hspecifier)]
    · simp [hsame, Ne.symm hsame]
  -- The import is the first of its module.
  · have hnone : ∀ line ∈ grouped specs, line.specifier ≠ new.specifier := fun line hline heq =>
      hnew (hmem.1 (heq ▸ List.mem_map_of_mem hline))
    rw [if_neg hnew, addImport_of_forall_ne hnone, List.map_append, List.map_singleton, grouped]
    congr 1
    · refine List.map_congr_left fun specifier hspecifier => ?_
      have hne : new.specifier ≠ specifier := fun heq =>
        hnew (heq ▸ List.mem_eraseDups.1 hspecifier)
      simp [groupOf_concat, hne]
    · have hempty : groupOf specs new.specifier = [] := by
        rw [List.eq_nil_iff_forall_not_mem]
        intro spec hspec
        obtain ⟨hspec, heq⟩ := mem_groupOf.1 hspec
        exact hnew (heq ▸ List.mem_map_of_mem hspec)
      simp [groupOf_concat, hempty, mergeAll]

/-- Imports that are brought together one by one become one import for each group. -/
theorem foldl_addImport_eq_grouped (specs : List ImportSpec) :
    specs.foldl addImport [] = grouped specs := by
  induction specs using List.reverseRecOn with
  | nil => rfl
  | append_singleton specs new ih =>
      rw [List.foldl_append, ih, List.foldl_cons, List.foldl_nil, grouped_concat]

/-- Lines of different modules stay as they are when they are brought together. -/
theorem foldl_addImport_eq_self {lines : List ImportSpec}
    (h : (lines.map ImportSpec.specifier).Nodup) : lines.foldl addImport [] = lines := by
  induction lines using List.reverseRecOn with
  | nil => rfl
  | append_singleton lines last ih =>
      rw [List.map_append, List.nodup_append] at h
      rw [List.foldl_append, ih h.1, List.foldl_cons, List.foldl_nil]
      refine addImport_of_forall_ne fun line hline heq => ?_
      exact h.2.2 _ (List.mem_map_of_mem hline) _ (by simp) heq

/-! ### Bringing together twice -/

/-- A line that is written for a file is not written anew for it. -/
theorem rebaseImport_eq_self [Host] (h : spec.origin = none) : rebaseImport target spec = spec := by
  obtain ⟨⟩ := spec
  cases h
  rfl

theorem origin_mergeInto (into new : ImportSpec) : (mergeInto into new).origin = into.origin := by
  have hdefault : ∀ (into : ImportSpec) (new : Option String),
      (mergeDefault into new).origin = into.origin := by
    intro into new
    unfold mergeDefault
    grind
  have hnamespace : ∀ (into : ImportSpec) (new : Option String),
      (mergeNamespace into new).origin = into.origin := by
    intro into new
    unfold mergeNamespace
    split <;> rfl
  have hnamed : ∀ (named : List NamedImport) (into : ImportSpec),
      (named.foldl mergeNamed into).origin = into.origin := by
    intro named
    induction named with
    | nil => exact fun into => rfl
    | cons first rest ih =>
        intro into
        rw [List.foldl_cons, ih, mergeNamed]
        split <;> rfl
  show (new.named.foldl mergeNamed _).origin = into.origin
  rw [hnamed, hnamespace, hdefault]

theorem origin_of_mem_combineImports [Host] {line : ImportSpec} (h : line ∈ combineImports specs target) :
    line.origin = none := by
  rw [combineImports, foldl_addImport_eq_grouped, grouped, List.mem_map] at h
  obtain ⟨specifier, hspecifier, rfl⟩ := h
  obtain ⟨first, rest, hgroup⟩ :=
    List.exists_cons_of_ne_nil (groupOf_ne_nil (List.mem_eraseDups.1 hspecifier))
  have hfirst : first ∈ groupOf (specs.map (rebaseImport target)) specifier := by simp [hgroup]
  obtain ⟨source, -, rfl⟩ := List.mem_map.1 (mem_groupOf.1 hfirst).1
  rw [hgroup, mergeAll, foldl_mergeInto_of_kept origin_mergeInto]
  rfl

theorem map_rebaseImport_combineImports [Host] (specs : List ImportSpec) (target : Option Path) :
    (combineImports specs target).map (rebaseImport target) = combineImports specs target := by
  refine (List.map_congr_left fun line hline => ?_).trans (List.map_id _)
  exact rebaseImport_eq_self (origin_of_mem_combineImports hline)

/-- Imports that were brought together can be brought together with further ones. -/
theorem combineImports_append [Host] (specs more : List ImportSpec) (target : Option Path) :
    combineImports (combineImports specs target ++ more) target =
      combineImports (specs ++ more) target := by
  have hnodup : ((combineImports specs target).map ImportSpec.specifier).Nodup :=
    (combines_foldl (specs.map (rebaseImport target))).nodup
  rw [combineImports, List.map_append, map_rebaseImport_combineImports, List.foldl_append,
    foldl_addImport_eq_self hnodup]
  show _ = (List.map _ (specs ++ more)).foldl addImport []
  rw [List.map_append, List.foldl_append]
  rfl

/-- The specifiers of imports, as they are written for the target. -/
def rebasedSpecifiers [Host] (specs : List ImportSpec) (target : Option Path) : List String :=
  specs.map fun spec => rebase spec.specifier spec.origin target

theorem map_specifier_rebaseImport [Host] (specs : List ImportSpec) (target : Option Path) :
    (specs.map (rebaseImport target)).map ImportSpec.specifier = rebasedSpecifiers specs target :=
  List.map_map

/-- Imports are brought together group by group. The lines have the specifiers of the imports, each once
and in order of first appearance, and each line is what the imports with its specifier become, one after
the other; it is for types only when all of them are. What was brought together can be taken in place of
the imports that it was made of, in front of any further ones. -/
theorem combineImports_grouping [Host] (specs more : List ImportSpec) (target : Option Path) :
    (combineImports specs target).map ImportSpec.specifier =
        (rebasedSpecifiers specs target).eraseDups ∧
      ((combineImports specs target).map ImportSpec.specifier).Nodup ∧
      combineImports specs target = ((rebasedSpecifiers specs target).eraseDups.map fun specifier =>
        mergeAll (groupOf (specs.map (rebaseImport target)) specifier)) ∧
      (∀ line ∈ combineImports specs target, line.typeOnly = true ↔
        ∀ spec ∈ specs, rebase spec.specifier spec.origin target = line.specifier →
          spec.typeOnly = true) ∧
      combineImports (combineImports specs target ++ more) target =
        combineImports (specs ++ more) target ∧
      combineImports (combineImports specs target) target = combineImports specs target := by
  have hgrouped : combineImports specs target = grouped (specs.map (rebaseImport target)) :=
    foldl_addImport_eq_grouped _
  refine ⟨?_, (combines_foldl (specs.map (rebaseImport target))).nodup, ?_, ?_,
    combineImports_append specs more target, ?_⟩
  · rw [hgrouped, map_specifier_grouped, map_specifier_rebaseImport]
  · rw [hgrouped, grouped, map_specifier_rebaseImport]
  · intro line hline
    rw [hgrouped, grouped, List.mem_map] at hline
    obtain ⟨specifier, hspecifier, rfl⟩ := hline
    have hspecifier := List.mem_eraseDups.1 hspecifier
    rw [typeOnly_mergeAll_groupOf hspecifier, specifier_mergeAll_groupOf hspecifier,
      List.forall_mem_map]
    exact Iff.rfl
  · have h := combineImports_append specs [] target
    rwa [List.append_nil, List.append_nil] at h

/-! ### What lines bind -/

/-- Every name that an import binds is bound to the same thing in the line of its module, the only one
there, unless it is a further name for the module as a namespace. -/
theorem mem_bindings_combineImports_iff [Host] {imported : ImportedName} (hspec : spec ∈ specs)
    (himported : imported ∈ (rebaseImport target spec).bindings) :
    ∃ line ∈ combineImports specs target,
      line.specifier = rebase spec.specifier spec.origin target ∧
      (∀ other ∈ combineImports specs target, other.specifier = line.specifier → other = line) ∧
      (imported ∈ line.bindings ↔ (imported.exported = .all →
        ((specs.map (rebaseImport target)).flatMap ImportSpec.bindings).find?
          (namesModule imported.specifier) = some imported)) := by
  have hcombines := combines_foldl (specs.map (rebaseImport target))
  have hmem := List.mem_map_of_mem (f := rebaseImport target) hspec
  obtain ⟨line, hline, hspecifier⟩ := hcombines.covered _ hmem
  have hall : imported ∈ (specs.map (rebaseImport target)).flatMap ImportSpec.bindings :=
    List.mem_flatMap.2 ⟨_, hmem, himported⟩
  refine ⟨line, hline, hspecifier, fun other hother heq =>
    hcombines.eq_of_specifier hother hline heq, ?_⟩
  constructor
  · intro hbinds
    exact ((hcombines.mem_iff imported).1 (List.mem_flatMap.2 ⟨line, hline, hbinds⟩)).2
  · intro harrives
    refine hcombines.mem_bindings_of_specifier hline ((hcombines.mem_iff imported).2 ⟨hall, harrives⟩) ?_
    rw [ImportedName.specifier_of_mem himported, hspecifier]

/-- Two imports that name the default export of a module differently. -/
def twoDefaults : List ImportSpec :=
  [{ specifier := "lib", defaultName := some "A" }, { specifier := "lib", defaultName := some "B" }]

attribute [local instance] Host.solitary

/-- The second name of the default export has its place among the named imports. -/
theorem second_default_kept :
    { specifier := "lib", defaultName := some "B" } ∈ twoDefaults ∧
      ⟨"B", "lib", .one "default"⟩ ∈
        (rebaseImport none { specifier := "lib", defaultName := some "B" }).bindings ∧
      ∃ line ∈ combineImports twoDefaults none, line.specifier = "lib" ∧
        ⟨"B", "lib", .one "default"⟩ ∈ line.bindings := by
  have hspec : { specifier := "lib", defaultName := some "B" } ∈ twoDefaults := by decide
  have himported : ⟨"B", "lib", .one "default"⟩ ∈
      (rebaseImport none { specifier := "lib", defaultName := some "B" }).bindings := by decide
  obtain ⟨line, hline, hspecifier, -, hiff⟩ := mem_bindings_combineImports_iff hspec himported
  exact ⟨hspec, himported, line, hline, hspecifier, hiff.2 nofun⟩

/-- Two imports that name a module as a namespace differently. -/
def twoNamespaces : List ImportSpec :=
  [{ specifier := "lib", namespaceName := some "x" }, { specifier := "lib", namespaceName := some "y" }]

/-- There is one line for the module, and it does not bind the second name. -/
theorem second_namespace_lost :
    { specifier := "lib", namespaceName := some "y" } ∈ twoNamespaces ∧
      ⟨"y", "lib", .all⟩ ∈
        (rebaseImport none { specifier := "lib", namespaceName := some "y" }).bindings ∧
      ∃ line, combineImports twoNamespaces none = [line] ∧ line.specifier = "lib" ∧
        "y" ∉ line.localNames := by
  exact ⟨by decide, by decide, { specifier := "lib", namespaceName := some "x" }, by decide, rfl,
    by decide⟩

end RouteBinder.Emit
