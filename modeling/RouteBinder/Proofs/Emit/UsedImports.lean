import RouteBinder.Proofs.Emit.CombinedImports
import RouteBinder.Proofs.Text.Mentions

/-!
# RouteBinder.Proofs.Emit.UsedImports

**Imports that emitted texts use.** Texts are searched for names; nothing reads them as programs. A text
uses a default or named import where the local name stands in it as a whole identifier, and a namespace
only where a dot stands right behind the name (`ImportedName.IsUsedBy`). The imports with a name that
one of the texts uses are kept, in order and as they are, and no others
(`filterUsed_eq_filter_isUsedBy`). So no import is kept in vain, and one with a name that stands in a
text is left out only if this is the name of its namespace and never has a dot behind it: a namespace
stays where a member of it is called (`filterUsed_namespace_by_member`), and is lost where it is handed on
as a value (`filterUsed_namespace_as_value`).
-/

namespace RouteBinder

open Text

/-- The text uses what the name stands for: a namespace by a member, an export by the name itself. -/
def ImportedName.IsUsedBy (imported : ImportedName) (text : String) : Prop :=
  match imported.exported with
  | .all => StandsBeforeDot imported.name.toList text.toList
  | .one _ => Stands imported.name.toList text.toList

/-- One of the texts uses a name that the import binds. -/
def ImportSpec.IsUsedBy (spec : ImportSpec) (texts : List String) : Prop :=
  ∃ imported ∈ spec.bindings, ∃ text ∈ texts, imported.IsUsedBy text

namespace Emit

variable {imported : ImportedName} {spec : ImportSpec} {text : String} {texts : List String}

theorem isUsedIn_iff : isUsedIn text imported = true ↔ imported.IsUsedBy text := by
  rw [isUsedIn, ImportedName.IsUsedBy]
  cases imported.exported with
  | all => exact mentionsMember_iff
  | one name => exact mentions_iff

theorem isUsed_iff_isUsedBy : isUsed texts spec = true ↔ spec.IsUsedBy texts := by
  simp only [isUsed_iff, isUsedIn_iff, ImportSpec.IsUsedBy]

instance (spec : ImportSpec) (texts : List String) : Decidable (spec.IsUsedBy texts) :=
  decidable_of_iff (isUsed texts spec = true) isUsed_iff_isUsedBy

/-- Whatever a text uses stands in it as a whole identifier. -/
theorem stands_of_isUsedBy (h : imported.IsUsedBy text) :
    Stands imported.name.toList text.toList := by
  rw [ImportedName.IsUsedBy] at h
  split at h
  · exact h.stands
  · exact h

/-- A local name that stands in a text is used there, unless it is the name of the namespace. -/
theorem isUsedBy_or_of_stands {name : String} (hname : name ∈ spec.localNames) (htext : text ∈ texts)
    (hstands : Stands name.toList text.toList) :
    spec.IsUsedBy texts ∨ present spec.namespaceName = some name := by
  rw [← ImportSpec.map_name_bindings] at hname
  obtain ⟨imported, himported, rfl⟩ := List.mem_map.1 hname
  cases hexported : imported.exported with
  | all =>
      have hmem := ImportedName.mem_namespaceBinding_of_all himported hexported
      exact Or.inr (ImportedName.mem_namespaceBinding.1 hmem).1
  | one exportName =>
      refine Or.inl ⟨imported, himported, text, htext, ?_⟩
      rw [ImportedName.IsUsedBy, hexported]
      exact hstands

/-- The name of a namespace is used where a dot stands behind it. -/
theorem isUsedBy_of_standsBeforeDot {name : String} (hname : present spec.namespaceName = some name)
    (htext : text ∈ texts) (hdot : StandsBeforeDot name.toList text.toList) : spec.IsUsedBy texts := by
  refine ⟨⟨name, spec.specifier, .all⟩, ?_, text, htext, hdot⟩
  exact ImportedName.mem_bindings.2
    (Or.inr (Or.inl (ImportedName.mem_namespaceBinding.2 ⟨hname, rfl, rfl⟩)))

theorem filterUsed_eq (specs : List ImportSpec) (texts : List String) :
    filterUsed specs texts = specs.filter fun spec => decide (spec.IsUsedBy texts) := by
  refine List.filter_congr fun spec _ => ?_
  rw [Bool.eq_iff_iff, decide_eq_true_eq]
  exact isUsed_iff_isUsedBy

theorem mem_filterUsed {specs : List ImportSpec} :
    spec ∈ filterUsed specs texts ↔ spec ∈ specs ∧ spec.IsUsedBy texts := by
  rw [filterUsed_eq, List.mem_filter, decide_eq_true_eq]

/-- Leaving out keeps the imports that the texts use, in order and as they are. Each of them has a local
name that stands in a text as a whole identifier. An import that is left out may have one too, but only
as the name of its namespace, and with no dot behind it in any text. -/
theorem filterUsed_eq_filter_isUsedBy (specs : List ImportSpec) (texts : List String) :
    filterUsed specs texts = specs.filter (fun spec => decide (spec.IsUsedBy texts)) ∧
      (∀ spec ∈ filterUsed specs texts, ∃ name ∈ spec.localNames, ∃ text ∈ texts,
        Stands name.toList text.toList) ∧
      ∀ spec ∈ specs, ∀ name ∈ spec.localNames, ∀ text ∈ texts, Stands name.toList text.toList →
        spec ∈ filterUsed specs texts ∨ (present spec.namespaceName = some name ∧
          ∀ other ∈ texts, ¬ StandsBeforeDot name.toList other.toList) := by
  refine ⟨filterUsed_eq specs texts, ?_, ?_⟩
  · intro spec hspec
    obtain ⟨-, imported, himported, text, htext, hused⟩ := mem_filterUsed.1 hspec
    refine ⟨imported.name, ?_, text, htext, stands_of_isUsedBy hused⟩
    rw [← ImportSpec.map_name_bindings]
    exact List.mem_map_of_mem himported
  · intro spec hspec name hname text htext hstands
    by_cases hused : spec.IsUsedBy texts
    · exact Or.inl (mem_filterUsed.2 ⟨hspec, hused⟩)
    · have hnamespace := (isUsedBy_or_of_stands hname htext hstands).resolve_left hused
      refine Or.inr ⟨hnamespace, fun other hother hdot => hused ?_⟩
      exact isUsedBy_of_standsBeforeDot hnamespace hother hdot

/-- A module that is imported as a namespace. -/
def namespaceImport : ImportSpec := { specifier := "lib", namespaceName := some "ns" }

/-- A namespace of which a member is called is kept. -/
theorem filterUsed_namespace_by_member :
    "ns" ∈ namespaceImport.localNames ∧ Stands "ns".toList "ns.go();".toList ∧
      namespaceImport ∈ filterUsed [namespaceImport] ["ns.go();"] := by
  have hname : "ns" ∈ namespaceImport.localNames := by decide
  have hdot : StandsBeforeDot "ns".toList "ns.go();".toList := ⟨[], "go();".toList, by decide, rfl⟩
  obtain ⟨-, -, hkept⟩ := filterUsed_eq_filter_isUsedBy [namespaceImport] ["ns.go();"]
  refine ⟨hname, hdot.stands, ?_⟩
  refine (hkept namespaceImport List.mem_cons_self "ns" hname "ns.go();" List.mem_cons_self
    hdot.stands).resolve_right ?_
  rintro ⟨-, hnone⟩
  exact hnone "ns.go();" List.mem_cons_self hdot

/-- A namespace that is handed to a function is left out, although its name stands in the text. -/
theorem filterUsed_namespace_as_value :
    "ns" ∈ namespaceImport.localNames ∧ Stands "ns".toList "f(ns);".toList ∧
      filterUsed [namespaceImport] ["f(ns);"] = [] := by
  refine ⟨by decide, mentions_iff.1 (by decide +kernel), by decide +kernel⟩

end Emit

end RouteBinder
