import Mathlib.Data.List.Induction
import Mathlib.Data.List.Nodup
import RouteBinder.Proofs.Emit.ImportedNames

/-!
# RouteBinder.Proofs.Emit.CombinedImports

**The imports of all route files as one list.** `Combines` says what a list of lines has to do with the
imports it was made of: one line for each module, every default and named import in it, and of the
names for the module as a namespace the first. One more import keeps this (`Combines.addImport`), so it
holds for the imports of a whole tree (`combines_treeImports`). Leaving out keeps or drops the line of a
module as a whole (`mem_filterUsed_iff`).
-/

namespace RouteBinder.Emit

open Text FileSystem Route ImportedName

variable {imported : ImportedName}

/-- Does the name stand for the module with the specifier as a namespace? -/
def namesModule (specifier : String) (imported : ImportedName) : Bool :=
  imported.specifier == specifier && imported.exported == .all

theorem namesModule_iff {specifier : String} :
    namesModule specifier imported = true ↔
      imported.specifier = specifier ∧ imported.exported = .all := by
  rw [namesModule, Bool.and_eq_true, beq_iff_eq, beq_iff_eq]

/-- If the name is one for a module as a namespace, it is the first of the module. -/
def Arrives (imports : List ImportedName) (imported : ImportedName) : Prop :=
  imported.exported = .all → imports.find? (namesModule imported.specifier) = some imported

/-- `lines` are what `specs` become when they are brought together. -/
structure Combines (specs lines : List ImportSpec) : Prop where
  /-- There is one line for each module. -/
  nodup : (lines.map ImportSpec.specifier).Nodup
  /-- Every import is in a line of its module, -/
  covered : ∀ spec ∈ specs, ∃ line ∈ lines, line.specifier = spec.specifier
  /-- which binds nothing for types only that was not. -/
  typeOnly : ∀ line ∈ lines, line.typeOnly = true → ∀ spec ∈ specs,
    spec.specifier = line.specifier → spec.typeOnly = true
  /-- The lines bind what the imports bind, but of the names for a module only the first. -/
  mem_iff : ∀ imported, imported ∈ lines.flatMap ImportSpec.bindings ↔
    imported ∈ specs.flatMap ImportSpec.bindings ∧
      Arrives (specs.flatMap ImportSpec.bindings) imported

theorem Combines.nil : Combines [] [] := by
  refine ⟨List.nodup_nil, ?_, ?_, ?_⟩ <;> simp

section

variable {specs lines : List ImportSpec} {new : ImportSpec}

theorem Combines.eq_of_specifier (h : Combines specs lines) {line other : ImportSpec}
    (hline : line ∈ lines) (hother : other ∈ lines) (heq : line.specifier = other.specifier) :
    line = other :=
  List.inj_on_of_nodup_map h.nodup hline hother heq

/-- A name that a line binds stands in the line of its module. -/
theorem Combines.mem_bindings_of_specifier (h : Combines specs lines) {line : ImportSpec}
    (hline : line ∈ lines) (himported : imported ∈ lines.flatMap ImportSpec.bindings)
    (heq : imported.specifier = line.specifier) : imported ∈ line.bindings := by
  obtain ⟨other, hother, hmem⟩ := List.mem_flatMap.1 himported
  rw [h.eq_of_specifier hline hother (heq.symm.trans (specifier_of_mem hmem))]
  exact hmem

theorem addImport_of_forall_ne (hnew : ∀ line ∈ lines, line.specifier ≠ new.specifier) :
    addImport lines new = lines ++ [new] := by
  rw [addImport, if_neg]
  simpa using hnew

theorem addImport_of_mem {line : ImportSpec} (hline : line ∈ lines)
    (heq : line.specifier = new.specifier) :
    addImport lines new = lines.map fun line =>
      if line.specifier == new.specifier then mergeInto line new else line := by
  rw [addImport, if_pos]
  simpa using ⟨line, hline, heq⟩

theorem map_specifier_addImport_of_mem {line : ImportSpec} (hline : line ∈ lines)
    (heq : line.specifier = new.specifier) :
    (addImport lines new).map ImportSpec.specifier = lines.map ImportSpec.specifier := by
  rw [addImport_of_mem hline heq, List.map_map]
  refine List.map_congr_left fun line _ => ?_
  show (if line.specifier == new.specifier then mergeInto line new else line).specifier = _
  split
  · exact specifier_mergeInto line new
  · rfl

theorem Combines.mem_bindings_addImport (h : Combines specs lines) :
    imported ∈ (addImport lines new).flatMap ImportSpec.bindings ↔
      imported ∈ lines.flatMap ImportSpec.bindings ∨ (imported ∈ new.bindings ∧
        (imported.exported = .all → ∀ other ∈ lines.flatMap ImportSpec.bindings,
          other.specifier = imported.specifier → other.exported ≠ .all)) := by
  by_cases hnew : ∃ line ∈ lines, line.specifier = new.specifier
  · obtain ⟨line, hline, heq⟩ := hnew
    rw [addImport_of_mem hline heq, List.flatMap_map, List.mem_flatMap]
    -- Only the line of the module of the new import changes.
    constructor
    · rintro ⟨merged, hmerged, hmem⟩
      split at hmem
      · rename_i hsame
        rw [beq_iff_eq] at hsame
        rcases (mem_bindings_mergeInto hsame).1 hmem with hold | ⟨hmem, hall⟩
        · exact Or.inl (List.mem_flatMap.2 ⟨merged, hmerged, hold⟩)
        · refine Or.inr ⟨hmem, fun hexported other hother hspecifier => hall hexported other ?_⟩
          refine h.mem_bindings_of_specifier hmerged hother ?_
          rw [hspecifier, specifier_of_mem hmem, hsame]
      · exact Or.inl (List.mem_flatMap.2 ⟨merged, hmerged, hmem⟩)
    · rintro (hold | ⟨hmem, hall⟩)
      · obtain ⟨known, hknown, hold⟩ := List.mem_flatMap.1 hold
        refine ⟨known, hknown, ?_⟩
        split
        · rename_i hsame
          exact (mem_bindings_mergeInto (beq_iff_eq.1 hsame)).2 (Or.inl hold)
        · exact hold
      · refine ⟨line, hline, ?_⟩
        rw [if_pos (beq_iff_eq.2 heq), mem_bindings_mergeInto heq]
        refine Or.inr ⟨hmem, fun hexported other hother => ?_⟩
        refine hall hexported other (List.mem_flatMap.2 ⟨line, hline, hother⟩) ?_
        rw [specifier_of_mem hother, specifier_of_mem hmem, heq]
  · push Not at hnew
    rw [addImport_of_forall_ne hnew, List.flatMap_append, List.mem_append, List.flatMap_singleton]
    refine or_congr_right ⟨fun hmem => ⟨hmem, ?_⟩, And.left⟩
    -- No line has names of the module of the new import.
    intro _ other hother hspecifier
    obtain ⟨line, hline, hmem'⟩ := List.mem_flatMap.1 hother
    refine absurd ?_ (hnew line hline)
    rw [← specifier_of_mem hmem', hspecifier, specifier_of_mem hmem]

/-- Among the names of one import the first for its module is the only one. -/
theorem find?_namesModule_bindings (himported : imported ∈ new.bindings)
    (hall : imported.exported = .all) :
    new.bindings.find? (namesModule imported.specifier) = some imported := by
  cases hfind : new.bindings.find? (namesModule imported.specifier) with
  | none =>
      have := List.find?_eq_none.1 hfind imported himported
      exact absurd (namesModule_iff.2 ⟨rfl, hall⟩) this
  | some other =>
      have hother := (namesModule_iff.1 (List.find?_some hfind)).2
      rw [eq_of_all himported (List.mem_of_find?_eq_some hfind) hall hother]

/-- No line names a module exactly when no import did. -/
theorem Combines.find?_eq_none_iff (h : Combines specs lines) {specifier : String} :
    (specs.flatMap ImportSpec.bindings).find? (namesModule specifier) = none ↔
      ∀ other ∈ lines.flatMap ImportSpec.bindings,
        other.specifier = specifier → other.exported ≠ .all := by
  constructor
  · intro hnone other hother hspecifier hall
    have := List.find?_eq_none.1 hnone other ((h.mem_iff other).1 hother).1
    exact this (namesModule_iff.2 ⟨hspecifier, hall⟩)
  · intro hlines
    cases hfind : (specs.flatMap ImportSpec.bindings).find? (namesModule specifier) with
    | none => rfl
    | some other =>
        obtain ⟨hspecifier, hall⟩ := namesModule_iff.1 (List.find?_some hfind)
        refine absurd hall (hlines other ((h.mem_iff other).2 ?_) hspecifier)
        refine ⟨List.mem_of_find?_eq_some hfind, fun _ => ?_⟩
        rw [hspecifier, hfind]

theorem Combines.nodup_addImport (h : Combines specs lines) :
    ((addImport lines new).map ImportSpec.specifier).Nodup := by
  by_cases hnew : ∃ line ∈ lines, line.specifier = new.specifier
  · obtain ⟨line, hline, heq⟩ := hnew
    rw [map_specifier_addImport_of_mem hline heq]
    exact h.nodup
  · push Not at hnew
    rw [addImport_of_forall_ne hnew, List.map_append, List.map_singleton, List.nodup_append]
    refine ⟨h.nodup, List.nodup_singleton _, ?_⟩
    intro specifier hspecifier other hother
    obtain ⟨line, hline, rfl⟩ := List.mem_map.1 hspecifier
    rw [List.mem_singleton.1 hother]
    exact hnew line hline

theorem Combines.covered_addImport (h : Combines specs lines) :
    ∀ spec ∈ specs ++ [new], ∃ line ∈ addImport lines new, line.specifier = spec.specifier := by
  suffices hall : ∀ spec ∈ specs ++ [new],
      spec.specifier ∈ (addImport lines new).map ImportSpec.specifier by
    intro spec hspec
    obtain ⟨line, hline, heq⟩ := List.mem_map.1 (hall spec hspec)
    exact ⟨line, hline, heq⟩
  have hold : ∀ spec ∈ specs, spec.specifier ∈ lines.map ImportSpec.specifier := by
    intro spec hspec
    obtain ⟨line, hline, heq⟩ := h.covered spec hspec
    exact heq ▸ List.mem_map_of_mem hline
  intro spec hspec
  rw [List.mem_append, List.mem_singleton] at hspec
  by_cases hnew : ∃ line ∈ lines, line.specifier = new.specifier
  · obtain ⟨line, hline, heq⟩ := hnew
    rw [map_specifier_addImport_of_mem hline heq]
    rcases hspec with hmem | rfl
    · exact hold spec hmem
    · exact heq ▸ List.mem_map_of_mem hline
  · push Not at hnew
    rw [addImport_of_forall_ne hnew, List.map_append, List.mem_append]
    rcases hspec with hmem | rfl
    · exact Or.inl (hold spec hmem)
    · exact Or.inr (List.mem_singleton_self _)

theorem Combines.typeOnly_addImport (h : Combines specs lines) :
    ∀ line ∈ addImport lines new, line.typeOnly = true → ∀ spec ∈ specs ++ [new],
      spec.specifier = line.specifier → spec.typeOnly = true := by
  intro line hline htype spec hspec hspecifier
  rw [List.mem_append, List.mem_singleton] at hspec
  by_cases hnew : ∃ line ∈ lines, line.specifier = new.specifier
  · obtain ⟨known, hknown, heq⟩ := hnew
    rw [addImport_of_mem hknown heq] at hline
    -- A line that is for types only after a merge was so before, like the new import.
    obtain ⟨merged, hmerged, rfl⟩ := List.mem_map.1 hline
    split at htype
    · rename_i hsame
      obtain ⟨hold, htypeNew⟩ :=
        Bool.and_eq_true_iff.1 (show (merged.typeOnly && new.typeOnly) = true from htype)
      rw [if_pos hsame, specifier_mergeInto] at hspecifier
      rcases hspec with hmem | rfl
      · exact h.typeOnly merged hmerged hold spec hmem hspecifier
      · exact htypeNew
    · rename_i hother
      rw [if_neg hother] at hspecifier
      rcases hspec with hmem | rfl
      · exact h.typeOnly merged hmerged htype spec hmem hspecifier
      · exact absurd (beq_iff_eq.2 hspecifier.symm) hother
  · push Not at hnew
    rw [addImport_of_forall_ne hnew, List.mem_append, List.mem_singleton] at hline
    rcases hline with hold | rfl
    · rcases hspec with hmem | rfl
      · exact h.typeOnly line hold htype spec hmem hspecifier
      · exact absurd hspecifier.symm (hnew line hold)
    · rcases hspec with hmem | rfl
      -- No import before has the specifier, since no line has it.
      · obtain ⟨known, hknown, heq⟩ := h.covered spec hmem
        exact absurd (heq.trans hspecifier) (hnew known hknown)
      · exact htype

/-- Adding an import is what bringing together does with one more import. -/
theorem Combines.addImport (h : Combines specs lines) (new : ImportSpec) :
    Combines (specs ++ [new]) (addImport lines new) := by
  refine ⟨h.nodup_addImport, h.covered_addImport, h.typeOnly_addImport, ?_⟩
  intro imported
  rw [h.mem_bindings_addImport, h.mem_iff, Arrives, Arrives, List.flatMap_append,
    List.flatMap_singleton, List.mem_append, List.find?_append, ← h.find?_eq_none_iff]
  by_cases hall : imported.exported = .all
  -- A name for the module comes from the new import only if no line has one.
  · simp only [hall, forall_true_left]
    constructor
    · rintro (⟨hmem, hfind⟩ | ⟨hmem, hnone⟩)
      · exact ⟨Or.inl hmem, by rw [hfind, Option.some_or]⟩
      · refine ⟨Or.inr hmem, ?_⟩
        rw [hnone, Option.none_or]
        exact find?_namesModule_bindings hmem hall
    · rintro ⟨-, hfind⟩
      rcases Option.or_eq_some_iff.1 hfind with hold | ⟨hnone, hnew⟩
      · exact Or.inl ⟨List.mem_of_find?_eq_some hold, hold⟩
      · exact Or.inr ⟨List.mem_of_find?_eq_some hnew, hnone⟩
  · simp only [hall, false_implies, and_true]

theorem combines_foldl (specs : List ImportSpec) : Combines specs (specs.foldl addImport []) := by
  induction specs using List.reverseRecOn with
  | nil => exact Combines.nil
  | append_singleton specs new ih =>
      rw [List.foldl_append, List.foldl_cons, List.foldl_nil]
      exact ih.addImport new

end

/-! ### The imports of a tree -/

/-- The imports of the route files of a tree, as they are written in a file of the directory. -/
def rebasedImports [Host] (tree : RouteTree) (directory : Path) : List ImportSpec :=
  (tree.entries.flatMap fun (_, node) => node.imports).map (rebaseImport (some directory))

theorem combines_treeImports [Host] (tree : RouteTree) (directory : Path) :
    Combines (rebasedImports tree directory) (treeImports tree (some directory)) :=
  combines_foldl _

/-- The names that the route files of a tree import. -/
def fileImports [Host] (tree : RouteTree) (directory : Path) : List ImportedName :=
  (rebasedImports tree directory).flatMap ImportSpec.bindings

theorem mem_rebasedImports [Host] {tree node : RouteTree} {directories : List String} {spec : ImportSpec}
    (hentry : (directories, node) ∈ tree.entries) (hspec : spec ∈ node.imports) (directory : Path) :
    rebaseImport (some directory) spec ∈ rebasedImports tree directory :=
  List.mem_map_of_mem (List.mem_flatMap.2 ⟨_, hentry, hspec⟩)

/-! ### Leaving out -/

/-- Does the text use the name? A namespace is used by its members. -/
def isUsedIn (text : String) (imported : ImportedName) : Bool :=
  match imported.exported with
  | .all => mentionsMember text imported.name
  | .one _ => mentions text imported.name

theorem isUsedIn_of_all {text : String} (hall : imported.exported = .all) :
    isUsedIn text imported = mentionsMember text imported.name := by
  rw [isUsedIn, hall]

theorem isUsedIn_of_ne_all {text : String} (hne : imported.exported ≠ .all) :
    isUsedIn text imported = mentions text imported.name := by
  rw [isUsedIn]
  split
  · rename_i hall
    exact absurd hall hne
  · rfl

theorem isUsed_iff {texts : List String} {spec : ImportSpec} :
    isUsed texts spec = true ↔
      ∃ imported ∈ spec.bindings, ∃ text ∈ texts, isUsedIn text imported = true := by
  simp only [isUsed, Bool.or_eq_true, List.any_eq_true, List.mem_append, List.mem_map,
    Option.mem_toList, Option.any_eq_true]
  constructor
  · rintro (⟨name, ⟨named, hnamed, rfl⟩ | hname, hused⟩ | ⟨name, hname, hused⟩)
    · exact ⟨⟨named.localName, spec.specifier, .one named.name⟩, mem_bindings.2 (Or.inr (Or.inr
        (mem_namedBindings.2 ⟨named, hnamed, rfl, rfl, rfl⟩))), hused⟩
    · exact ⟨⟨name, spec.specifier, .one "default"⟩,
        mem_bindings.2 (Or.inl (mem_defaultBinding.2 ⟨hname, rfl, rfl⟩)), hused⟩
    · exact ⟨⟨name, spec.specifier, .all⟩,
        mem_bindings.2 (Or.inr (Or.inl (mem_namespaceBinding.2 ⟨hname, rfl, rfl⟩))), hused⟩
  · rintro ⟨imported, himported, text, htext, hused⟩
    rcases mem_bindings.1 himported with h | h | h
    · obtain ⟨hname, -, hexported⟩ := mem_defaultBinding.1 h
      rw [isUsedIn, hexported] at hused
      exact Or.inl ⟨imported.name, Or.inr hname, text, htext, hused⟩
    · obtain ⟨hname, -, hexported⟩ := mem_namespaceBinding.1 h
      rw [isUsedIn, hexported] at hused
      exact Or.inr ⟨imported.name, hname, text, htext, hused⟩
    · obtain ⟨named, hnamed, hname, -, hexported⟩ := mem_namedBindings.1 h
      rw [isUsedIn, hexported] at hused
      exact Or.inl ⟨imported.name, Or.inl ⟨named, hnamed, hname⟩, text, htext, hused⟩

/-- A line stays when the text uses one of the names that it binds. -/
theorem Combines.mem_filterUsed_iff {specs lines : List ImportSpec} (h : Combines specs lines)
    {text : String} :
    imported ∈ (filterUsed lines [text]).flatMap ImportSpec.bindings ↔
      imported ∈ lines.flatMap ImportSpec.bindings ∧
        ∃ other ∈ lines.flatMap ImportSpec.bindings, other.specifier = imported.specifier ∧
          isUsedIn text other = true := by
  rw [filterUsed]
  constructor
  · intro himported
    obtain ⟨line, hline, hmem⟩ := List.mem_flatMap.1 himported
    obtain ⟨hline, hused⟩ := List.mem_filter.1 hline
    obtain ⟨other, hother, used, htext, hused⟩ := isUsed_iff.1 hused
    rw [List.mem_singleton.1 htext] at hused
    exact ⟨List.mem_flatMap.2 ⟨line, hline, hmem⟩, other, List.mem_flatMap.2 ⟨line, hline, hother⟩,
      (specifier_of_mem hother).trans (specifier_of_mem hmem).symm, hused⟩
  · rintro ⟨himported, other, hother, hspecifier, hused⟩
    obtain ⟨line, hline, hmem⟩ := List.mem_flatMap.1 himported
    refine List.mem_flatMap.2 ⟨line, List.mem_filter.2 ⟨hline, isUsed_iff.2
      ⟨other, ?_, text, List.mem_singleton_self _, hused⟩⟩, hmem⟩
    exact h.mem_bindings_of_specifier hline hother (hspecifier.trans (specifier_of_mem hmem))

end RouteBinder.Emit
