/-!
# RouteBinder.Keyed

**Lists ordered by key.** Directories and route trees keep their entries as pairs in increasing order
of the keys, so that two of them with the same entries are equal. `Keyed.put` is the only way in
which entries are added.
-/

namespace RouteBinder.Keyed

variable {α : Type}

/-- The entries with `value` at `key`. -/
def put (key : String) (value : α) : List (String × α) → List (String × α)
  | [] => [(key, value)]
  | (other, present) :: rest =>
    if key == other then (key, value) :: rest
    else if key < other then (key, value) :: (other, present) :: rest
    else (other, present) :: put key value rest

/-- The entries without the one at `key`. -/
def remove (key : String) (entries : List (String × α)) : List (String × α) :=
  entries.filter (·.1 != key)

/-- Putting a value at a key makes it the value there. -/
theorem lookup_put_self (key : String) (value : α) (entries : List (String × α)) :
    (put key value entries).lookup key = some value := by
  induction entries with
  | nil => simp [put]
  | cons entry rest ih =>
    obtain ⟨other, present⟩ := entry
    rw [put]
    split
    · simp
    · split
      · simp
      · rename_i different _
        rw [List.lookup_cons, ih]
        simp [Bool.eq_false_iff.2 different]

/-- Putting a value at a key leaves all other keys alone. -/
theorem lookup_put_of_ne {key other : String} (different : other ≠ key) (value : α)
    (entries : List (String × α)) :
    (put key value entries).lookup other = entries.lookup other := by
  have unequal : (other == key) = false := beq_eq_false_iff_ne.2 different
  induction entries with
  | nil => simp [put, List.lookup_cons, unequal]
  | cons entry rest ih =>
    obtain ⟨first, present⟩ := entry
    rw [put]
    split
    · rename_i same
      have same : key = first := beq_iff_eq.1 same
      subst same
      simp [List.lookup_cons, unequal]
    · split
      · simp [List.lookup_cons, unequal]
      · rw [List.lookup_cons, List.lookup_cons, ih]

end RouteBinder.Keyed
