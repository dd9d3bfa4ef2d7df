import Mathlib.Data.List.Basic
import RouteBinder.Emit.Imports

/-!
# RouteBinder.Proofs.Emit.ImportedNames

**What imports bind.** An import is a list of `ImportedName`s: a name, the module, and what the name
stands for there. An import that is added to one from the same module keeps its default and named
imports, a second default import as an alias; a second name for the module as a namespace is lost
(`mem_bindings_mergeInto`).
-/

namespace RouteBinder

/-- What an imported name stands for in its module. -/
inductive Exported where
  /-- The module as a namespace. -/
  | all
  /-- An export; the default export has the name `default`. -/
  | one (name : String)
  deriving DecidableEq, Repr

/-- A name that an import binds. -/
structure ImportedName where
  name : String
  specifier : String
  exported : Exported
  deriving DecidableEq, Repr

namespace ImportSpec

/-- The name of the default import. -/
def defaultBinding (spec : ImportSpec) : List ImportedName :=
  (present spec.defaultName).toList.map fun name => ⟨name, spec.specifier, .one "default"⟩

/-- The name of the namespace. -/
def namespaceBinding (spec : ImportSpec) : List ImportedName :=
  (present spec.namespaceName).toList.map fun name => ⟨name, spec.specifier, .all⟩

/-- The names of the named imports. -/
def namedBindings (spec : ImportSpec) : List ImportedName :=
  spec.named.map fun named => ⟨named.localName, spec.specifier, .one named.name⟩

/-- The names that the import binds, in order. -/
def bindings (spec : ImportSpec) : List ImportedName :=
  spec.defaultBinding ++ spec.namespaceBinding ++ spec.namedBindings

theorem map_name_bindings (spec : ImportSpec) :
    spec.bindings.map ImportedName.name = spec.localNames := by
  simp [bindings, defaultBinding, namespaceBinding, namedBindings, localNames, Function.comp_def]

theorem bindings_append_named (spec : ImportSpec) (named : NamedImport) :
    { spec with named := spec.named ++ [named] }.bindings =
      spec.bindings ++ [⟨named.localName, spec.specifier, .one named.name⟩] := by
  simp [bindings, defaultBinding, namespaceBinding, namedBindings]

end ImportSpec

namespace ImportedName

variable {imported : ImportedName} {spec : ImportSpec}

theorem eq_mk_iff {name specifier : String} {exported : Exported} :
    imported = ⟨name, specifier, exported⟩ ↔
      imported.name = name ∧ imported.specifier = specifier ∧ imported.exported = exported := by
  cases imported
  simp only [ImportedName.mk.injEq]

theorem mem_defaultBinding :
    imported ∈ spec.defaultBinding ↔ present spec.defaultName = some imported.name ∧
      imported.specifier = spec.specifier ∧ imported.exported = .one "default" := by
  obtain ⟨name, specifier, exported⟩ := imported
  simp only [ImportSpec.defaultBinding, List.mem_map, Option.mem_toList, ImportedName.mk.injEq]
  constructor
  · rintro ⟨_, hname, rfl, rfl, rfl⟩
    exact ⟨hname, rfl, rfl⟩
  · rintro ⟨hname, rfl, rfl⟩
    exact ⟨name, hname, rfl, rfl, rfl⟩

theorem mem_namespaceBinding :
    imported ∈ spec.namespaceBinding ↔ present spec.namespaceName = some imported.name ∧
      imported.specifier = spec.specifier ∧ imported.exported = .all := by
  obtain ⟨name, specifier, exported⟩ := imported
  simp only [ImportSpec.namespaceBinding, List.mem_map, Option.mem_toList, ImportedName.mk.injEq]
  constructor
  · rintro ⟨_, hname, rfl, rfl, rfl⟩
    exact ⟨hname, rfl, rfl⟩
  · rintro ⟨hname, rfl, rfl⟩
    exact ⟨name, hname, rfl, rfl, rfl⟩

theorem mem_namedBindings :
    imported ∈ spec.namedBindings ↔ ∃ named ∈ spec.named, named.localName = imported.name ∧
      imported.specifier = spec.specifier ∧ imported.exported = .one named.name := by
  obtain ⟨name, specifier, exported⟩ := imported
  simp only [ImportSpec.namedBindings, List.mem_map, ImportedName.mk.injEq]
  constructor
  · rintro ⟨named, hnamed, rfl, rfl, rfl⟩
    exact ⟨named, hnamed, rfl, rfl, rfl⟩
  · rintro ⟨named, hnamed, rfl, rfl, rfl⟩
    exact ⟨named, hnamed, rfl, rfl, rfl⟩

theorem mem_bindings :
    imported ∈ spec.bindings ↔ imported ∈ spec.defaultBinding ∨ imported ∈ spec.namespaceBinding ∨
      imported ∈ spec.namedBindings := by
  rw [ImportSpec.bindings, List.mem_append, List.mem_append, or_assoc]

theorem specifier_of_mem (h : imported ∈ spec.bindings) : imported.specifier = spec.specifier := by
  rcases mem_bindings.1 h with h | h | h
  · exact (mem_defaultBinding.1 h).2.1
  · exact (mem_namespaceBinding.1 h).2.1
  · obtain ⟨named, -, -, hspecifier, -⟩ := mem_namedBindings.1 h
    exact hspecifier

/-- A namespace can only come from the namespace clause. -/
theorem mem_namespaceBinding_of_all (h : imported ∈ spec.bindings) (hall : imported.exported = .all) :
    imported ∈ spec.namespaceBinding := by
  rcases mem_bindings.1 h with h | h | h
  · have hdefault := (mem_defaultBinding.1 h).2.2
    rw [hall] at hdefault
    cases hdefault
  · exact h
  · obtain ⟨named, -, -, -, hnamed⟩ := mem_namedBindings.1 h
    rw [hall] at hnamed
    cases hnamed

/-- One import names the namespace at most once. -/
theorem eq_of_all {other : ImportedName} (h : imported ∈ spec.bindings) (ho : other ∈ spec.bindings)
    (hall : imported.exported = .all) (hoall : other.exported = .all) : other = imported := by
  obtain ⟨hname, hspecifier, -⟩ :=
    mem_namespaceBinding.1 (mem_namespaceBinding_of_all h hall)
  obtain ⟨honame, hospecifier, -⟩ :=
    mem_namespaceBinding.1 (mem_namespaceBinding_of_all ho hoall)
  have heq : other.name = imported.name := Option.some.inj (honame.symm.trans hname)
  obtain ⟨name, specifier, exported⟩ := imported
  obtain ⟨_, _, _⟩ := other
  simp only at heq hall hoall hspecifier hospecifier
  rw [heq, hall, hoall, hspecifier, hospecifier]

theorem present_namespaceName_eq_none_iff :
    present spec.namespaceName = none ↔ ∀ other ∈ spec.bindings, other.exported ≠ .all := by
  constructor
  · intro hnone other hother hall
    have hname := (mem_namespaceBinding.1 (mem_namespaceBinding_of_all hother hall)).1
    rw [hnone] at hname
    cases hname
  · intro h
    cases hname : present spec.namespaceName with
    | none => rfl
    | some name =>
        refine absurd rfl (h ⟨name, spec.specifier, .all⟩ (mem_bindings.2 (Or.inr (Or.inl ?_))))
        exact mem_namespaceBinding.2 ⟨hname, rfl, rfl⟩

end ImportedName

/-- A name that is there is not empty. -/
theorem present_of_present {name : Option String} {text : String} (h : present name = some text) :
    present (some text) = some text := by
  unfold present at h ⊢
  obtain ⟨-, hne⟩ := Option.filter_eq_some_iff.1 h
  rw [Option.filter_some, if_pos hne]

namespace Emit

open ImportedName

variable {imported : ImportedName}

/-! ### Bringing together -/

theorem mem_bindings_mergeDefault {into : ImportSpec} {new : Option String} :
    imported ∈ (mergeDefault into new).bindings ↔ imported ∈ into.bindings ∨
      (present new = some imported.name ∧ imported.specifier = into.specifier ∧
        imported.exported = .one "default") := by
  unfold mergeDefault
  cases hnew : present new with
  | none => simp
  | some name =>
      cases hknown : present into.defaultName with
      | none =>
          have hname := present_of_present hnew
          simp only [mem_bindings, mem_defaultBinding, mem_namespaceBinding, mem_namedBindings, hname,
            hknown]
          grind
      | some known =>
          simp only
          split
          · rename_i hold
            -- Either it is the default import already, or an alias of it.
            refine ⟨Or.inl, ?_⟩
            rintro (h | ⟨hname, hspecifier, hexported⟩)
            · exact h
            · rw [Bool.or_eq_true, beq_iff_eq, List.contains_iff_mem] at hold
              rcases hold with rfl | halias
              · exact mem_bindings.2 (Or.inl (mem_defaultBinding.2
                  ⟨hknown.trans hname, hspecifier, hexported⟩))
              · refine mem_bindings.2 (Or.inr (Or.inr (mem_namedBindings.2
                  ⟨_, halias, ?_, hspecifier, hexported⟩)))
                rw [NamedImport.localName, present_of_present hnew, Option.getD_some]
                exact Option.some.inj hname
          · rw [ImportSpec.bindings_append_named, List.mem_append, List.mem_singleton, eq_mk_iff,
              NamedImport.localName, present_of_present hnew, Option.getD_some, Option.some.injEq,
              eq_comm (a := name)]

theorem mem_bindings_mergeNamespace {into : ImportSpec} {new : Option String} :
    imported ∈ (mergeNamespace into new).bindings ↔ imported ∈ into.bindings ∨
      (present into.namespaceName = none ∧ present new = some imported.name ∧
        imported.specifier = into.specifier ∧ imported.exported = .all) := by
  unfold mergeNamespace
  cases hnew : present new with
  | none => simp
  | some name =>
      cases hknown : present into.namespaceName with
      | none =>
          have hname := present_of_present hnew
          simp only [mem_bindings, mem_defaultBinding, mem_namespaceBinding, mem_namedBindings, hname,
            hknown]
          grind
      | some known => simp

theorem mem_bindings_mergeNamed {into : ImportSpec} {new : NamedImport} :
    imported ∈ (mergeNamed into new).bindings ↔ imported ∈ into.bindings ∨
      (new.localName = imported.name ∧ imported.specifier = into.specifier ∧
        imported.exported = .one new.name) := by
  unfold mergeNamed
  split
  · rename_i hold
    refine ⟨Or.inl, ?_⟩
    rintro (h | ⟨hname, hspecifier, hexported⟩)
    · exact h
    · rw [List.contains_iff_mem] at hold
      exact mem_bindings.2 (Or.inr (Or.inr (mem_namedBindings.2
        ⟨new, hold, hname, hspecifier, hexported⟩)))
  · rw [ImportSpec.bindings_append_named, List.mem_append, List.mem_singleton, eq_mk_iff,
      eq_comm (a := new.localName)]

@[simp] theorem specifier_mergeDefault (into : ImportSpec) (new : Option String) :
    (mergeDefault into new).specifier = into.specifier := by
  unfold mergeDefault
  grind

@[simp] theorem namespaceName_mergeDefault (into : ImportSpec) (new : Option String) :
    (mergeDefault into new).namespaceName = into.namespaceName := by
  unfold mergeDefault
  grind

@[simp] theorem specifier_mergeNamespace (into : ImportSpec) (new : Option String) :
    (mergeNamespace into new).specifier = into.specifier := by
  unfold mergeNamespace
  split <;> rfl

@[simp] theorem specifier_mergeNamed (into : ImportSpec) (new : NamedImport) :
    (mergeNamed into new).specifier = into.specifier := by
  unfold mergeNamed
  split <;> rfl

theorem specifier_foldl_mergeNamed (new : List NamedImport) (into : ImportSpec) :
    (new.foldl mergeNamed into).specifier = into.specifier := by
  induction new generalizing into with
  | nil => rfl
  | cons named rest ih => rw [List.foldl_cons, ih, specifier_mergeNamed]

theorem mem_bindings_foldl_mergeNamed {new : List NamedImport} {into : ImportSpec} :
    imported ∈ (new.foldl mergeNamed into).bindings ↔ imported ∈ into.bindings ∨
      ∃ named ∈ new, named.localName = imported.name ∧ imported.specifier = into.specifier ∧
        imported.exported = .one named.name := by
  induction new generalizing into with
  | nil => simp
  | cons named rest ih =>
      rw [List.foldl_cons, ih, mem_bindings_mergeNamed, specifier_mergeNamed, List.exists_mem_cons_iff,
        or_assoc]

@[simp] theorem specifier_mergeInto (into new : ImportSpec) :
    (mergeInto into new).specifier = into.specifier := by
  show (List.foldl mergeNamed _ new.named).specifier = into.specifier
  rw [specifier_foldl_mergeNamed, specifier_mergeNamespace, specifier_mergeDefault]

/-- An import that is added to one from its module keeps all its names, but for the namespace if that
has a name already. -/
theorem mem_bindings_mergeInto {into new : ImportSpec} (hsame : into.specifier = new.specifier) :
    imported ∈ (mergeInto into new).bindings ↔ imported ∈ into.bindings ∨
      (imported ∈ new.bindings ∧
        (imported.exported = .all → ∀ other ∈ into.bindings, other.exported ≠ .all)) := by
  show imported ∈ (List.foldl mergeNamed _ new.named).bindings ↔ _
  rw [mem_bindings_foldl_mergeNamed, mem_bindings_mergeNamespace, mem_bindings_mergeDefault,
    ← present_namespaceName_eq_none_iff, @mem_bindings imported new, mem_defaultBinding,
    mem_namespaceBinding, mem_namedBindings]
  simp only [specifier_mergeNamespace, specifier_mergeDefault, namespaceName_mergeDefault, hsame]
  grind

end Emit

end RouteBinder
