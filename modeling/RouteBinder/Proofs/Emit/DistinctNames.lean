import Mathlib.Data.List.Basic
import Mathlib.Data.List.Count
import Mathlib.Data.List.Nodup
import RouteBinder.Proofs.Emit.NumberedNames

/-!
# RouteBinder.Proofs.Emit.DistinctNames

**When all names are different in the end.** Where a name is bound several times, its occurrences after the
first get the numbers from 1 on. No two occurrences get the same numbered name, whatever their names are
(`numbered_inj`, `nodup_numberedNames`). But a numbered name may be there already, as the name of another
import, which nobody looks at. So all names are different exactly when no import is called like a name with
one of the numbers that this name needs (`nodup_localNames_dealias_iff`).
-/

namespace RouteBinder.Emit

variable {earlier : List String} {imports : List ImportedName} {name base : String} {i : Nat}

/-! ### Numbers -/

/-- A name with a number. -/
def numbered (base : String) (i : Nat) : String := base ++ "_" ++ toString i

/-- The digits of a number end where an underscore comes, read from behind. -/
theorem takeWhile_digits (i : Nat) (rest : List Char) :
    ((toString i).toList.reverse ++ '_' :: rest).takeWhile (· != '_') = (toString i).toList.reverse := by
  have hdigits : '_' ∉ (toString i).toList := by
    rw [Nat.toString_eq_repr, Nat.toList_repr]
    exact Nat.underscore_not_in_toDigits
  rw [List.takeWhile_append_of_pos, List.takeWhile_cons_of_neg (by simp), List.append_nil]
  intro c hc
  rw [bne_iff_ne]
  exact fun heq => hdigits (heq ▸ List.mem_reverse.1 hc)

/-- The name and the number can be told apart again. -/
theorem numbered_inj {other : String} {j : Nat} :
    numbered base i = numbered other j ↔ base = other ∧ i = j := by
  constructor
  · intro h
    have hreverse : (toString i).toList.reverse ++ '_' :: base.toList.reverse =
        (toString j).toList.reverse ++ '_' :: other.toList.reverse := by
      simpa [numbered] using congrArg (fun text : String => text.toList.reverse) h
    have hdigits := congrArg (List.takeWhile (· != '_')) hreverse
    rw [takeWhile_digits, takeWhile_digits, List.reverse_inj] at hdigits
    obtain rfl : i = j := by
      simpa [Nat.toString_eq_repr, Nat.toList_repr] using
        congrArg (fun digits => Nat.ofDigitChars 10 digits 0) hdigits
    have hname := (List.cons.inj (List.append_cancel_left hreverse)).2
    rw [List.reverse_inj, String.toList_inj] at hname
    exact ⟨hname, rfl⟩
  · rintro ⟨rfl, rfl⟩
    rfl

theorem numbered?_toList (earlier : List String) (name : String) :
    (numbered? earlier name).toList =
      if earlier.count name = 0 then [] else [numbered name (earlier.count name)] := by
  rw [numbered?]
  by_cases h : earlier.count name = 0 <;> simp [h, numbered]

theorem count_concat (earlier : List String) (name base : String) :
    (earlier ++ [name]).count base = earlier.count base + if name = base then 1 else 0 := by
  rw [List.count_append, List.count_singleton]
  simp

/-- The occurrences of each name are counted, from the ones that were there earlier on. -/
theorem mem_map_name_numberedNames : name ∈ (numberedNames earlier imports).map ImportedName.name ↔
    ∃ base i, 0 < i ∧ earlier.count base ≤ i ∧
      i < earlier.count base + (imports.map ImportedName.name).count base ∧ name = numbered base i := by
  induction imports generalizing earlier with
  | nil =>
      simp only [numberedNames, List.map_nil, List.not_mem_nil, List.count_nil, false_iff]
      rintro ⟨base, i, -, hle, hlt, -⟩
      omega
  | cons first rest ih =>
      rw [numberedNames, List.map_append, List.map_map, List.mem_append, ih, numbered?_toList]
      simp only [count_concat, List.map_cons, List.count_cons, beq_iff_eq]
      constructor
      · rintro (hfirst | ⟨base, i, hpos, hle, hlt, heq⟩)
        · split at hfirst
          · cases hfirst
          · rename_i hcount
            refine ⟨first.name, earlier.count first.name, by omega, by omega, ?_,
              List.mem_singleton.1 hfirst⟩
            rw [if_pos rfl]
            omega
        · exact ⟨base, i, hpos, by omega, by omega, heq⟩
      · rintro ⟨base, i, hpos, hle, hlt, heq⟩
        by_cases hfirst : first.name = base ∧ earlier.count base = i
        -- The number is the one of the first import.
        · obtain ⟨rfl, rfl⟩ := hfirst
          exact Or.inl (by simpa [Nat.pos_iff_ne_zero.1 hpos] using heq)
        · refine Or.inr ⟨base, i, hpos, ?_, by omega, heq⟩
          split
          · rename_i hbase
            have hne : earlier.count base ≠ i := fun heq => hfirst ⟨hbase, heq⟩
            omega
          · exact hle

/-- No two occurrences get the same name with a number. -/
theorem nodup_numberedNames (earlier : List String) (imports : List ImportedName) :
    ((numberedNames earlier imports).map ImportedName.name).Nodup := by
  induction imports generalizing earlier with
  | nil => exact List.nodup_nil
  | cons first rest ih =>
      rw [numberedNames, List.map_append, List.map_map, List.nodup_append, numbered?_toList]
      refine ⟨?_, ih _, ?_⟩
      · split
        · exact List.nodup_nil
        · exact List.nodup_singleton _
      -- Behind the first import, the count of its name goes on with a greater number.
      · intro name hname other hother heq
        split at hname
        · cases hname
        · obtain ⟨base, i, -, hle, -, hother⟩ := mem_map_name_numberedNames.1 hother
          rw [← heq, List.mem_singleton.1 hname] at hother
          obtain ⟨rfl, rfl⟩ := numbered_inj.1 hother
          rw [count_concat, if_pos rfl] at hle
          omega

/-! ### Names in the end -/

theorem length_firstNamed (imports : List ImportedName) (name : String) :
    (firstNamed [] imports name).length = if name ∈ imports.map ImportedName.name then 1 else 0 := by
  rw [firstNamed, if_neg List.not_mem_nil]
  cases hfind : imports.find? (·.name == name) with
  | none =>
      rw [if_neg]
      · rfl
      · intro hmem
        obtain ⟨imported, himported, rfl⟩ := List.mem_map.1 hmem
        exact List.find?_eq_none.1 hfind imported himported (beq_self_eq_true _)
  | some imported =>
      have hname : imported.name = name := beq_iff_eq.1 (List.find?_some hfind :)
      rw [if_pos]
      · rfl
      · exact hname ▸ List.mem_map_of_mem (List.mem_of_find?_eq_some hfind)

theorem count_map_name (imports : List ImportedName) (name : String) :
    (imports.map ImportedName.name).count name = (imports.filter (·.name == name)).length := by
  rw [List.count_eq_length_filter, List.filter_map, List.length_map]
  rfl

/-- A name comes up in the end once if an import has it, and once if it is a name with a number. -/
theorem count_map_name_numberedAfter (imports : List ImportedName) (name : String) :
    ((numberedAfter [] imports).map ImportedName.name).count name =
      (if name ∈ imports.map ImportedName.name then 1 else 0) +
        ((numberedNames [] imports).map ImportedName.name).count name := by
  rw [count_map_name, count_map_name, (filter_numberedAfter name imports []).length_eq,
    List.length_append, length_firstNamed]

theorem nodup_map_name_numberedAfter_iff (imports : List ImportedName) :
    ((numberedAfter [] imports).map ImportedName.name).Nodup ↔
      ∀ name ∈ imports.map ImportedName.name,
        name ∉ (numberedNames [] imports).map ImportedName.name := by
  rw [List.nodup_iff_count_le_one]
  refine forall_congr' fun name => ?_
  have honce := List.nodup_iff_count_le_one.1 (nodup_numberedNames [] imports) name
  rw [count_map_name_numberedAfter, ← List.count_pos_iff (l := (numberedNames [] imports).map _)]
  split <;> grind

theorem map_name_flatMap_bindings (specs : List ImportSpec) :
    (specs.flatMap ImportSpec.bindings).map ImportedName.name = specs.flatMap ImportSpec.localNames := by
  rw [List.map_flatMap]
  simp only [ImportSpec.map_name_bindings]

/-- After names are told apart, all of them are different exactly when no import had the name that another
one gets: a name of several imports, with a number below how many there are. -/
theorem nodup_localNames_dealias_iff (specs : List ImportSpec) :
    ((dealias specs).flatMap ImportSpec.localNames).Nodup ↔
      ∀ name i, 0 < i → i < (specs.flatMap ImportSpec.localNames).count name →
        numbered name i ∉ specs.flatMap ImportSpec.localNames := by
  rw [← map_name_flatMap_bindings, bindings_dealias, nodup_map_name_numberedAfter_iff,
    map_name_flatMap_bindings]
  constructor
  · intro hdistinct name i hpos hlt hmem
    refine hdistinct _ hmem (mem_map_name_numberedNames.2 ⟨name, i, hpos, ?_, ?_, rfl⟩)
    · rw [List.count_nil]
      exact Nat.zero_le i
    · rwa [List.count_nil, Nat.zero_add, map_name_flatMap_bindings]
  · intro hfree name hmem hnumbered
    obtain ⟨base, i, hpos, -, hlt, rfl⟩ := mem_map_name_numberedNames.1 hnumbered
    rw [List.count_nil, Nat.zero_add, map_name_flatMap_bindings] at hlt
    exact hfree base i hpos hlt hmem

/-- Three imports, of which one is called like another one with its number. -/
def threeImports : List ImportSpec :=
  [{ specifier := "m", named := [{ name := "a" }] }, { specifier := "n", named := [{ name := "a" }] },
    { specifier := "o", named := [{ name := "a_1" }] }]

/-- The second import gets the name of the third one. -/
theorem localNames_dealias_threeImports :
    (dealias threeImports).flatMap ImportSpec.localNames = ["a", "a_1", "a_1"] ∧
      ¬ ((dealias threeImports).flatMap ImportSpec.localNames).Nodup := by
  decide +kernel

end RouteBinder.Emit
