import Mathlib.Data.String.Basic
import RouteBinder.Keyed

/-!
# RouteBinder.Proofs.Keyed

**Entries in the order of their keys.** `Keyed.put` and `Keyed.remove` keep a list of entries `Sorted`,
and a sorted list is determined by what `List.lookup` answers (`Sorted.ext`). So two directories, or
the children of two route nodes, are compared by looking up names, and never by how they were built.
-/

namespace RouteBinder.Keyed

variable {α : Type}

/-- The keys increase strictly. -/
def Sorted (entries : List (String × α)) : Prop :=
  entries.Pairwise fun a b => a.1 < b.1

instance (entries : List (String × α)) : Decidable (Sorted entries) :=
  inferInstanceAs (Decidable (entries.Pairwise fun a b => a.1 < b.1))

@[simp] theorem Sorted.nil : Sorted ([] : List (String × α)) := List.Pairwise.nil

theorem sorted_cons {entry : String × α} {entries : List (String × α)} :
    Sorted (entry :: entries) ↔ (∀ e ∈ entries, entry.1 < e.1) ∧ Sorted entries :=
  List.pairwise_cons

/-! ### Looking up -/

theorem lookup_cons {key other : String} {value : α} {entries : List (String × α)} :
    ((other, value) :: entries).lookup key =
      if key = other then some value else entries.lookup key := by
  rw [List.lookup_cons]
  by_cases h : key = other
  · simp [h]
  · simp [h, beq_eq_false_iff_ne.2 h]

theorem mem_of_lookup {key : String} {value : α} {entries : List (String × α)}
    (h : entries.lookup key = some value) : (key, value) ∈ entries := by
  induction entries with
  | nil => simp at h
  | cons entry rest ih =>
      obtain ⟨other, present⟩ := entry
      rw [lookup_cons] at h
      split at h
      · rename_i hk
        cases hk
        cases h
        exact List.mem_cons_self
      · exact List.mem_cons_of_mem _ (ih h)

/-- In a sorted list nothing is behind a key that is not smaller than it. -/
theorem lookup_eq_none_of_lt {key : String} {entries : List (String × α)}
    (h : ∀ e ∈ entries, key < e.1) : entries.lookup key = none := by
  cases hl : entries.lookup key with
  | none => rfl
  | some value => exact absurd (h _ (mem_of_lookup hl)) (lt_irrefl key)

theorem Sorted.lookup_of_mem {key : String} {value : α} {entries : List (String × α)}
    (hs : Sorted entries) (h : (key, value) ∈ entries) : entries.lookup key = some value := by
  induction entries with
  | nil => cases h
  | cons entry rest ih =>
      obtain ⟨other, present⟩ := entry
      obtain ⟨hlt, hs⟩ := sorted_cons.1 hs
      rw [lookup_cons]
      rcases List.mem_cons.1 h with heq | h
      · cases heq
        rw [if_pos rfl]
      · rw [if_neg (hlt _ h).ne', ih hs h]

/-- A sorted list is determined by its look-ups. -/
theorem Sorted.ext : ∀ {s t : List (String × α)}, Sorted s → Sorted t →
    (∀ key, s.lookup key = t.lookup key) → s = t
  | [], [], _, _, _ => rfl
  | [], (key, value) :: t, _, _, h => by simpa [lookup_cons] using h key
  | (key, value) :: s, [], _, _, h => by simpa [lookup_cons] using h key
  | (key, value) :: s, (key', value') :: t, hs, ht, h => by
      obtain ⟨hlt, hsr⟩ := sorted_cons.1 hs
      obtain ⟨hlt', htr⟩ := sorted_cons.1 ht
      -- The smaller one of two first keys would be missing in the other list.
      have hfirst : key = key' := by
        rcases lt_trichotomy key key' with hkk | hkk | hkk
        · have hn : ((key', value') :: t).lookup key = none :=
            lookup_eq_none_of_lt fun e he => by
              rcases List.mem_cons.1 he with rfl | he
              · exact hkk
              · exact hkk.trans (hlt' e he)
          rw [← h key, lookup_cons, if_pos rfl] at hn
          cases hn
        · exact hkk
        · have hn : ((key, value) :: s).lookup key' = none :=
            lookup_eq_none_of_lt fun e he => by
              rcases List.mem_cons.1 he with rfl | he
              · exact hkk
              · exact hkk.trans (hlt e he)
          rw [h key', lookup_cons, if_pos rfl] at hn
          cases hn
      subst hfirst
      have hvalue : value = value' := by simpa [lookup_cons] using h key
      have hrest : s = t := hsr.ext htr fun k => by
        by_cases hk : k = key
        · subst hk
          rw [lookup_eq_none_of_lt hlt, lookup_eq_none_of_lt hlt']
        · simpa [lookup_cons, hk] using h k
      rw [hvalue, hrest]

/-! ### Putting -/

theorem lookup_put (key other : String) (value : α) (entries : List (String × α)) :
    (put key value entries).lookup other =
      if other = key then some value else entries.lookup other := by
  split
  · rename_i h
    rw [h, lookup_put_self]
  · rename_i h
    exact lookup_put_of_ne h value entries

theorem mem_put {key : String} {value : α} {entries : List (String × α)} {entry : String × α}
    (h : entry ∈ put key value entries) : entry = (key, value) ∨ entry ∈ entries := by
  induction entries with
  | nil => exact Or.inl (by simpa [put] using h)
  | cons first rest ih =>
      obtain ⟨other, present⟩ := first
      rw [put] at h
      split at h
      · rcases List.mem_cons.1 h with h | h
        · exact Or.inl h
        · exact Or.inr (List.mem_cons_of_mem _ h)
      · split at h
        · exact List.mem_cons.1 h
        · rcases List.mem_cons.1 h with h | h
          · exact Or.inr (h ▸ List.mem_cons_self)
          · exact (ih h).imp_right (List.mem_cons_of_mem _)

theorem Sorted.put {entries : List (String × α)} (hs : Sorted entries) (key : String) (value : α) :
    Sorted (Keyed.put key value entries) := by
  induction entries with
  | nil => exact List.pairwise_singleton _ _
  | cons first rest ih =>
      obtain ⟨other, present⟩ := first
      obtain ⟨hlt, hrest⟩ := sorted_cons.1 hs
      rw [Keyed.put]
      split
      · rename_i h
        rw [beq_iff_eq.1 h]
        exact sorted_cons.2 ⟨hlt, hrest⟩
      · rename_i hne
        split
        · rename_i h
          refine sorted_cons.2 ⟨fun e he => ?_, hs⟩
          rcases List.mem_cons.1 he with rfl | he
          · exact h
          · exact h.trans (hlt e he)
        · rename_i h
          refine sorted_cons.2 ⟨fun e he => ?_, ih hrest⟩
          rcases mem_put he with rfl | he
          · exact lt_of_le_of_ne (not_lt.1 h) fun heq => hne (beq_iff_eq.2 heq.symm)
          · exact hlt e he

/-- Putting what is there changes nothing. -/
theorem Sorted.put_of_lookup {entries : List (String × α)} (hs : Sorted entries) {key : String}
    {value : α} (h : entries.lookup key = some value) : Keyed.put key value entries = entries := by
  refine (hs.put key value).ext hs fun other => ?_
  rw [lookup_put]
  split
  · rename_i ho
    rw [ho, h]
  · rfl

/-! ### Removing -/

@[simp] theorem lookup_remove_self (key : String) (entries : List (String × α)) :
    (remove key entries).lookup key = none := by
  cases h : (remove key entries).lookup key with
  | none => rfl
  | some value => simpa [remove] using mem_of_lookup h

theorem lookup_remove_of_ne {key other : String} (h : other ≠ key) (entries : List (String × α)) :
    (remove key entries).lookup other = entries.lookup other := by
  induction entries with
  | nil => rfl
  | cons entry rest ih =>
      obtain ⟨first, present⟩ := entry
      by_cases hf : first = key
      · subst hf
        rw [lookup_cons, if_neg h, ← ih]
        simp [remove]
      · rw [lookup_cons, ← ih, ← lookup_cons]
        simp [remove, hf]

theorem lookup_remove (key other : String) (entries : List (String × α)) :
    (remove key entries).lookup other = if other = key then none else entries.lookup other := by
  split
  · rename_i h
    rw [h, lookup_remove_self]
  · rename_i h
    exact lookup_remove_of_ne h entries

theorem Sorted.remove {entries : List (String × α)} (hs : Sorted entries) (key : String) :
    Sorted (Keyed.remove key entries) :=
  List.Pairwise.filter _ hs

/-! ### Changing one key again -/

/-- What was put at a key does not matter once the key is removed. -/
theorem remove_put (key : String) (value : α) (entries : List (String × α)) :
    remove key (put key value entries) = remove key entries := by
  induction entries with
  | nil => simp [put, remove]
  | cons entry rest ih =>
      obtain ⟨other, present⟩ := entry
      rw [put]
      split
      · rename_i h
        obtain rfl := beq_iff_eq.1 h
        simp [remove]
      · split
        · simp [remove]
        · simp only [remove, List.filter_cons] at ih ⊢
          rw [ih]

/-- The last of two values at a key counts. -/
theorem put_put (key : String) (value value' : α) (entries : List (String × α)) :
    put key value' (put key value entries) = put key value' entries := by
  induction entries with
  | nil => simp [put]
  | cons entry rest ih =>
      obtain ⟨other, present⟩ := entry
      by_cases h : key == other
      · simp [put, h]
      · by_cases hlt : key < other
        · rw [put, if_neg h, if_pos hlt, put, if_pos (beq_self_eq_true key), put, if_neg h,
            if_pos hlt]
        · rw [put, if_neg h, if_neg hlt, put, if_neg h, if_neg hlt, ih, put, if_neg h, if_neg hlt]

/-! ### Many entries at once -/

theorem lookup_filter (p : String → Bool) (key : String) (entries : List (String × α)) :
    (entries.filter fun e => p e.1).lookup key = if p key then entries.lookup key else none := by
  induction entries with
  | nil => simp
  | cons entry rest ih =>
      obtain ⟨other, value⟩ := entry
      rw [List.filter_cons]
      by_cases hp : p other = true
      · rw [if_pos hp, lookup_cons, lookup_cons, ih]
        by_cases hk : key = other
        · rw [if_pos hk, if_pos hk, if_pos (hk ▸ hp)]
        · rw [if_neg hk, if_neg hk]
      · rw [if_neg hp, ih, lookup_cons]
        by_cases hk : key = other
        · rw [if_neg (hk ▸ hp), if_neg (hk ▸ hp)]
        · rw [if_neg hk]

/-- Entries that are put one after the other count more than what is there. -/
theorem lookup_foldl_put {new : List (String × α)} (hs : Sorted new) (key : String)
    (entries : List (String × α)) :
    (new.foldl (fun es e => put e.1 e.2 es) entries).lookup key =
      (new.lookup key).or (entries.lookup key) := by
  induction new generalizing entries with
  | nil => rfl
  | cons entry rest ih =>
      obtain ⟨other, value⟩ := entry
      obtain ⟨hlt, hrest⟩ := sorted_cons.1 hs
      rw [List.foldl_cons, ih hrest, lookup_put, lookup_cons]
      by_cases hk : key = other
      · subst hk
        rw [lookup_eq_none_of_lt hlt, if_pos rfl, if_pos rfl]
        rfl
      · rw [if_neg hk, if_neg hk]

/-- Where nothing stands at a key, putting a value there adds one entry. -/
theorem perm_put {key : String} {entries : List (String × α)} (h : entries.lookup key = none)
    (value : α) : (put key value entries).Perm ((key, value) :: entries) := by
  induction entries with
  | nil => exact List.Perm.refl _
  | cons entry rest ih =>
      obtain ⟨other, present⟩ := entry
      rw [lookup_cons] at h
      split at h
      · cases h
      · rename_i hne
        rw [put, if_neg (by simpa only [beq_iff_eq] using hne)]
        split
        · exact List.Perm.refl _
        · exact ((ih h).cons _).trans (List.Perm.swap _ _ _)

theorem perm_foldl_put {new : List (String × α)} (hs : Sorted new) {entries : List (String × α)}
    (h : ∀ e ∈ new, entries.lookup e.1 = none) :
    (new.foldl (fun es e => put e.1 e.2 es) entries).Perm (entries ++ new) := by
  induction new generalizing entries with
  | nil => simp
  | cons entry rest ih =>
      obtain ⟨hlt, hrest⟩ := sorted_cons.1 hs
      have hput := perm_put (h entry List.mem_cons_self) entry.2
      have hfree : ∀ e ∈ rest, (put entry.1 entry.2 entries).lookup e.1 = none := by
        intro e he
        rw [lookup_put_of_ne (hlt e he).ne']
        exact h e (List.mem_cons_of_mem _ he)
      refine (ih hrest hfree).trans ((hput.append_right rest).trans ?_)
      exact List.perm_middle.symm

theorem Sorted.foldl_put {entries : List (String × α)} (hs : Sorted entries)
    (new : List (String × α)) : Sorted (new.foldl (fun es e => Keyed.put e.1 e.2 es) entries) := by
  induction new generalizing entries with
  | nil => exact hs
  | cons entry rest ih => exact ih (hs.put entry.1 entry.2)

/-! ### Around a key -/

/-- The entries in front of a key. -/
def before (key : String) (entries : List (String × α)) : List (String × α) :=
  entries.filter (·.1 < key)

/-- The entries behind a key. -/
def behind (key : String) (entries : List (String × α)) : List (String × α) :=
  entries.filter (key < ·.1)

/-- A sorted list is what stands in front of a key, what stands there, and what stands behind. -/
theorem Sorted.eq_around : ∀ {entries : List (String × α)}, Sorted entries → ∀ key,
    entries = before key entries ++
      (((entries.lookup key).map fun value => (key, value)).toList ++ behind key entries)
  | [], _, _ => rfl
  | (other, value) :: rest, hs, key => by
      obtain ⟨hlt, hrest⟩ := sorted_cons.1 hs
      -- The first entry is before the key, has it, or is behind it with all others.
      rcases lt_trichotomy other key with h | h | h
      · have hb : before key ((other, value) :: rest) = (other, value) :: before key rest := by
          rw [before, List.filter_cons_of_pos (by simpa only [decide_eq_true_eq] using h), before]
        have ha : behind key ((other, value) :: rest) = behind key rest := by
          rw [behind, List.filter_cons_of_neg
            (by simpa only [decide_eq_true_eq] using h.not_gt), behind]
        rw [hb, ha, lookup_cons, if_neg h.ne', List.cons_append, ← hrest.eq_around key]
      · subst h
        have hb : before other ((other, value) :: rest) = [] :=
          List.filter_eq_nil_iff.2 fun e he => by
            rcases List.mem_cons.1 he with rfl | he
            · simpa only [decide_eq_true_eq] using lt_irrefl _
            · simpa only [decide_eq_true_eq] using (hlt e he).not_gt
        have ha : behind other ((other, value) :: rest) = rest := by
          rw [behind, List.filter_cons_of_neg
            (by simpa only [decide_eq_true_eq] using lt_irrefl other)]
          exact List.filter_eq_self.2 fun e he => by
            simpa only [decide_eq_true_eq] using hlt e he
        rw [hb, ha, lookup_cons, if_pos rfl]
        rfl
      · have hall : ∀ e ∈ (other, value) :: rest, key < e.1 := fun e he => by
          rcases List.mem_cons.1 he with rfl | he
          · exact h
          · exact h.trans (hlt e he)
        have hb : before key ((other, value) :: rest) = [] :=
          List.filter_eq_nil_iff.2 fun e he => by
            simpa only [decide_eq_true_eq] using (hall e he).not_gt
        have ha : behind key ((other, value) :: rest) = (other, value) :: rest :=
          List.filter_eq_self.2 fun e he => by
            simpa only [decide_eq_true_eq] using hall e he
        rw [hb, ha, lookup_eq_none_of_lt hall]
        rfl

/-- What stands around a key does not depend on what stands there. -/
theorem before_remove (key : String) (entries : List (String × α)) :
    before key (remove key entries) = before key entries := by
  rw [before, remove, List.filter_filter]
  refine List.filter_congr fun e _ => ?_
  by_cases h : e.1 < key
  · simp only [h, decide_true, Bool.true_and, bne_iff_ne, ne_eq, h.ne, not_false_eq_true]
  · simp only [h, decide_false, Bool.false_and]

theorem behind_remove (key : String) (entries : List (String × α)) :
    behind key (remove key entries) = behind key entries := by
  rw [behind, remove, List.filter_filter]
  refine List.filter_congr fun e _ => ?_
  by_cases h : key < e.1
  · simp only [h, decide_true, Bool.true_and, bne_iff_ne, ne_eq, h.ne', not_false_eq_true]
  · simp only [h, decide_false, Bool.false_and]

/-- An entry that is put stands between what stands around its key. -/
theorem Sorted.put_eq_around {entries : List (String × α)} (hs : Sorted entries) (key : String)
    (value : α) :
    Keyed.put key value entries = before key entries ++ (key, value) :: behind key entries := by
  have haround := (hs.put key value).eq_around key
  rw [lookup_put_self, ← before_remove key (Keyed.put key value entries), remove_put, before_remove,
    ← behind_remove key (Keyed.put key value entries), remove_put, behind_remove] at haround
  exact haround

end RouteBinder.Keyed
