import RouteBinder.Proofs.Emit.ImportedNames

/-!
# RouteBinder.Proofs.Emit.NumberedNames

**Which import keeps its name.** Telling names apart goes through the names of all lines in order and
gives a number to every name that occurred before (`bindings_dealias`). So under a given name stand
afterwards the first import of that name and those that are numbered to it (`filter_numberedAfter`); the
numbered ones are listed by `numberedNames`. Nobody looks whether a numbered name is the name of another
import.
-/

namespace RouteBinder.Emit

open ImportedName

/-! ### Names with numbers -/

theorem numbered?_of_not_mem {earlier : List String} {name : String} (h : name ∉ earlier) :
    numbered? earlier name = none := by
  rw [numbered?, List.count_eq_zero_of_not_mem h]
  rfl

theorem numbered?_of_mem {earlier : List String} {name : String} (h : name ∈ earlier) :
    numbered? earlier name = some (name ++ "_" ++ toString (earlier.count name)) := by
  have hcount : earlier.count name ≠ 0 := by
    rw [ne_eq, List.count_eq_zero]
    exact not_not_intro h
  rw [numbered?, if_neg]
  simpa using hcount

/-- The name that an import has in the end. -/
def finalName (earlier : List String) (name : String) : String :=
  (numbered? earlier name).getD name

theorem present_numbered? {earlier : List String} {name numbered : String}
    (h : numbered? earlier name = some numbered) : present (some numbered) = some numbered := by
  by_cases hmem : name ∈ earlier
  · rw [numbered?_of_mem hmem, Option.some.injEq] at h
    rw [← h, present, Option.filter_some, if_pos]
    simp
  · rw [numbered?_of_not_mem hmem] at h
    cases h

theorem present_renameOption (earlier : List String) (name : Option String) :
    present (renameOption earlier name) = (present name).map (finalName earlier) := by
  unfold renameOption finalName
  cases hname : present name with
  | none => simp [hname]
  | some text =>
      cases hnumbered : numbered? earlier text with
      | none => simp [hname, hnumbered]
      | some numbered =>
          have := present_numbered? hnumbered
          simpa [hnumbered] using this

theorem localName_renamed (earlier : List String) (named : NamedImport) :
    NamedImport.localName
        { named with localAlias := numbered? earlier named.localName <|> named.localAlias } =
      finalName earlier named.localName := by
  rw [finalName]
  cases hnumbered : numbered? earlier named.localName with
  | none => simp [NamedImport.localName]
  | some numbered => simp [NamedImport.localName, present_numbered? hnumbered]

/-! ### The names of all lines -/

/-- The imports under the names that they have in the end. -/
def numberedAfter (earlier : List String) : List ImportedName → List ImportedName
  | [] => []
  | imported :: rest =>
    { imported with name := finalName earlier imported.name } ::
      numberedAfter (earlier ++ [imported.name]) rest

theorem numberedAfter_append (earlier : List String) (front back : List ImportedName) :
    numberedAfter earlier (front ++ back) =
      numberedAfter earlier front ++
        numberedAfter (earlier ++ front.map ImportedName.name) back := by
  induction front generalizing earlier with
  | nil => simp [numberedAfter]
  | cons imported front ih => simp [numberedAfter, ih]

theorem numberedAfter_toList (earlier : List String) (name : Option String) (specifier : String)
    (exported : Exported) :
    numberedAfter earlier (name.toList.map fun name => ⟨name, specifier, exported⟩) =
      (name.map (finalName earlier)).toList.map fun name => ⟨name, specifier, exported⟩ := by
  cases name <;> rfl

theorem namedBindings_renameNamed (earlier : List String) (specifier : String)
    (named : List NamedImport) :
    (renameNamed earlier named).map (fun named =>
        (⟨named.localName, specifier, .one named.name⟩ : ImportedName)) =
      numberedAfter earlier (named.map fun named => ⟨named.localName, specifier, .one named.name⟩) := by
  induction named generalizing earlier with
  | nil => rfl
  | cons named rest ih =>
      rw [renameNamed, List.map_cons, List.map_cons, numberedAfter, ih, localName_renamed]

theorem bindings_renameImport (earlier : List String) (spec : ImportSpec) :
    (renameImport earlier spec).bindings = numberedAfter earlier spec.bindings := by
  have hnames : ∀ (name : Option String) (exported : Exported),
      (name.toList.map fun name => (⟨name, spec.specifier, exported⟩ : ImportedName)).map
        ImportedName.name = name.toList := by
    intro name exported
    simp [Function.comp_def]
  rw [show spec.bindings = spec.defaultBinding ++ spec.namespaceBinding ++ spec.namedBindings from rfl,
    numberedAfter_append, numberedAfter_append, List.map_append, ← List.append_assoc, ImportSpec.defaultBinding, ImportSpec.namespaceBinding, hnames, hnames,
    numberedAfter_toList, numberedAfter_toList, ImportSpec.namedBindings,
    ← namedBindings_renameNamed, ← present_renameOption, ← present_renameOption]
  rfl

theorem bindings_dealiasAfter (earlier : List String) (specs : List ImportSpec) :
    (dealiasAfter earlier specs).flatMap ImportSpec.bindings =
      numberedAfter earlier (specs.flatMap ImportSpec.bindings) := by
  induction specs generalizing earlier with
  | nil => rfl
  | cons spec rest ih =>
      rw [dealiasAfter, List.flatMap_cons, List.flatMap_cons, numberedAfter_append, ih,
        bindings_renameImport, ImportSpec.map_name_bindings]

theorem bindings_dealias (specs : List ImportSpec) :
    (dealias specs).flatMap ImportSpec.bindings =
      numberedAfter [] (specs.flatMap ImportSpec.bindings) :=
  bindings_dealiasAfter [] specs

/-- Telling names apart changes nothing but names. -/
theorem exists_of_mem_dealiasAfter {line : ImportSpec} {specs : List ImportSpec}
    {earlier : List String} (h : line ∈ dealiasAfter earlier specs) :
    ∃ spec ∈ specs, spec.specifier = line.specifier ∧ spec.typeOnly = line.typeOnly := by
  induction specs generalizing earlier with
  | nil => exact absurd h List.not_mem_nil
  | cons spec rest ih =>
      rw [dealiasAfter, List.mem_cons] at h
      rcases h with rfl | h
      · exact ⟨spec, List.mem_cons_self, rfl, rfl⟩
      · obtain ⟨spec, hspec, heq⟩ := ih h
        exact ⟨spec, List.mem_cons_of_mem _ hspec, heq⟩

/-! ### The imports of one name -/

/-- The imports that get a number, under their new names. -/
def numberedNames (earlier : List String) : List ImportedName → List ImportedName
  | [] => []
  | imported :: rest =>
    ((numbered? earlier imported.name).toList.map fun name => { imported with name }) ++
      numberedNames (earlier ++ [imported.name]) rest

/-- The first import of a name, unless the name is taken. -/
def firstNamed (earlier : List String) (imports : List ImportedName) (name : String) :
    List ImportedName :=
  if name ∈ earlier then [] else (imports.find? (·.name == name)).toList

/-- Under a name stand the first import of that name and those that are numbered to it. -/
theorem filter_numberedAfter (name : String) (imports : List ImportedName) (earlier : List String) :
    ((numberedAfter earlier imports).filter (·.name == name)).Perm
      (firstNamed earlier imports name ++
        (numberedNames earlier imports).filter (·.name == name)) := by
  induction imports generalizing earlier with
  | nil =>
      rw [firstNamed]
      split <;> exact List.Perm.refl _
  | cons imported rest ih =>
      rw [numberedAfter, numberedNames, List.filter_append, finalName]
      have ih := ih (earlier ++ [imported.name])
      by_cases hmem : imported.name ∈ earlier
      -- The import gets a number, and its name was taken before already.
      · have hfirst : firstNamed (earlier ++ [imported.name]) rest name =
            firstNamed earlier (imported :: rest) name := by
          by_cases hname : name ∈ earlier
          · simp [firstNamed, hname]
          · have hne : imported.name ≠ name := fun heq => hname (heq ▸ hmem)
            simp [firstNamed, hname, hne, hne.symm]
        rw [hfirst] at ih
        rw [numbered?_of_mem hmem, Option.getD_some, Option.toList_some, List.map_singleton,
          List.filter_cons, List.filter_cons, List.filter_nil]
        split
        · exact (ih.cons _).trans List.perm_middle.symm
        · exact ih
      · rw [numbered?_of_not_mem hmem, Option.getD_none, Option.toList_none, List.map_nil,
          List.filter_nil, List.nil_append, List.filter_cons]
        by_cases hname : imported.name = name
        · subst hname
          -- The import is the first of its name.
          have hnow : firstNamed earlier (imported :: rest) imported.name = [imported] := by
            simp [firstNamed, hmem]
          have hlater : firstNamed (earlier ++ [imported.name]) rest imported.name = [] := by
            simp [firstNamed]
          rw [hlater] at ih
          rw [hnow, if_pos (beq_self_eq_true _)]
          exact ih.cons imported
        · have hfirst : firstNamed (earlier ++ [imported.name]) rest name =
              firstNamed earlier (imported :: rest) name := by
            simp [firstNamed, hname, Ne.symm hname]
          rw [if_neg (by simpa using hname), ← hfirst]
          exact ih

end RouteBinder.Emit
