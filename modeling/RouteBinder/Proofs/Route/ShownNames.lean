import RouteBinder.Route.Segment

/-!
# RouteBinder.Proofs.Route.ShownNames

**Which names show up in key paths.** The keys of a place are those of its names that are not
transparent, so a place that ends in such a name has a key of its own behind the keys of everything
above it. The first such name of a place gives the first key (`Segment.exists_first_shown`).
-/

namespace RouteBinder.Route

namespace Segment

/-- A directory of this name is part of the node above it. -/
def isTransparentName (name : String) : Bool := (classify name).isTransparent

/-- The last of the names shows up in routes. -/
def EndsShown (names : List String) : Prop :=
  ∃ last, names.getLast? = some last ∧ isTransparentName last = false

@[simp] theorem keys_nil : keys [] = [] := rfl

theorem keys_cons {name : String} (hname : name ≠ "") (rest : List String) :
    keys (name :: rest) =
      if isTransparentName name then keys rest else (classify name).key :: keys rest := by
  have hne : (!name.isEmpty) = true := by simpa using hname
  rw [keys, visible, List.filter_cons, if_pos hne, List.map_cons, List.filter_cons]
  by_cases ht : (classify name).isTransparent = true
  · simp [isTransparentName, ht, keys, visible]
  · simp [isTransparentName, ht, keys, visible]

theorem keys_cons_of_transparent {name : String} (hname : name ≠ "")
    (ht : isTransparentName name = true) (rest : List String) : keys (name :: rest) = keys rest := by
  rw [keys_cons hname, if_pos ht]

theorem keys_cons_of_shown {name : String} (hname : name ≠ "")
    (ht : isTransparentName name = false) (rest : List String) :
    keys (name :: rest) = (classify name).key :: keys rest := by
  rw [keys_cons hname, if_neg (by simp [ht])]

theorem keys_append (front back : List String) : keys (front ++ back) = keys front ++ keys back := by
  simp only [keys, visible, List.filter_append, List.map_append]

theorem EndsShown.ne_nil {names : List String} (h : EndsShown names) : names ≠ [] := by
  rintro rfl
  obtain ⟨last, hlast, -⟩ := h
  cases hlast

theorem endsShown_singleton {name : String} :
    EndsShown [name] ↔ isTransparentName name = false := by
  constructor
  · rintro ⟨last, hlast, ht⟩
    cases hlast
    exact ht
  · exact fun ht => ⟨name, rfl, ht⟩

theorem endsShown_cons {name : String} {rest : List String} (h : rest ≠ []) :
    EndsShown (name :: rest) ↔ EndsShown rest := by
  rw [EndsShown, EndsShown, List.getLast?_cons, List.getLast?_eq_some_getLast h]
  rfl

theorem endsShown_append {rest : List String} (h : rest ≠ []) (front : List String) :
    EndsShown (front ++ rest) ↔ EndsShown rest := by
  rw [EndsShown, EndsShown, List.getLast?_append, List.getLast?_eq_some_getLast h, Option.some_or]

/-- The first shown name of a place gives the first of its keys. -/
theorem exists_first_shown : ∀ {place : List String}, "" ∉ place → EndsShown place →
    ∃ first rest key, place = first ++ rest ∧ EndsShown first ∧ keys first = [key] ∧
      keys place = key :: keys rest
  | [], _, h => absurd rfl h.ne_nil
  | name :: rest, hne, h => by
      rw [List.mem_cons, not_or] at hne
      have hname : name ≠ "" := Ne.symm hne.1
      by_cases ht : isTransparentName name = true
      · have hrest : rest ≠ [] := by
          rintro rfl
          rw [endsShown_singleton, ht] at h
          cases h
        obtain ⟨first, back, key, rfl, hfirst, hkey, hkeys⟩ :=
          exists_first_shown hne.2 ((endsShown_cons hrest).1 h)
        refine ⟨name :: first, back, key, rfl, (endsShown_cons hfirst.ne_nil).2 hfirst, ?_, ?_⟩
        · rw [keys_cons_of_transparent hname ht, hkey]
        · rw [keys_cons_of_transparent hname ht, hkeys]
      · rw [Bool.not_eq_true] at ht
        refine ⟨[name], rest, (classify name).key, rfl, endsShown_singleton.2 ht, ?_, ?_⟩
        · rw [keys_cons_of_shown hname ht, keys_nil]
        · rw [keys_cons_of_shown hname ht]

theorem keys_ne_nil {place : List String} (hne : "" ∉ place) (h : EndsShown place) :
    keys place ≠ [] := by
  obtain ⟨first, rest, key, -, -, -, hkeys⟩ := exists_first_shown hne h
  rw [hkeys]
  exact List.cons_ne_nil _ _

end Segment

end RouteBinder.Route
