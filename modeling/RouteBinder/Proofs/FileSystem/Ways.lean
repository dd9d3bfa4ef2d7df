import RouteBinder.Proofs.FileSystem.Resolution

/-!
# RouteBinder.Proofs.FileSystem.Ways

**Ways from directories to files.** `Path.wayTo` goes up from a directory to the last directory that it has in
common with a file, and down from there (`Path.exists_wayTo`). So it leads to the file
(`Path.placeOf_append_wayTo`), and some ways tell where the file is whatever the directory is called:

* no step at all leads to the directory itself (`Path.wayTo_eq_nil_iff`);
* one step up leads to the directory around it (`Path.wayTo_eq_dots_iff`); and
* a way that begins with a name stays inside the directory (`Path.wayTo_eq_cons_iff`).
-/

namespace RouteBinder.FileSystem.Path

/-! ### The common beginning -/

theorem dropCommon_cons (a b : String) (as bs : List String) :
    dropCommon (a :: as) (b :: bs) = if a = b then dropCommon as bs else (a :: as, b :: bs) := by
  by_cases h : a = b <;> simp [dropCommon, h]

/-- What is dropped is a common beginning, and what is left begins differently. -/
theorem exists_dropCommon (directory file : List String) :
    ∃ common up down, directory = common ++ up ∧ file = common ++ down ∧
      (∀ name ∈ up.head?, name ∉ down.head?) ∧ dropCommon directory file = (up, down) := by
  induction directory generalizing file with
  | nil => exact ⟨[], [], file, rfl, rfl, fun _ hn => absurd hn (Option.not_mem_none _), rfl⟩
  | cons a as ih =>
      cases file with
      | nil => exact ⟨[], a :: as, [], rfl, rfl, fun _ _ => Option.not_mem_none _, rfl⟩
      | cons b bs =>
          rw [dropCommon_cons]
          split
          · rename_i hab
            subst hab
            obtain ⟨common, up, down, rfl, rfl, hheads, hdrop⟩ := ih bs
            exact ⟨a :: common, up, down, rfl, rfl, hheads, hdrop⟩
          · rename_i hab
            refine ⟨[], a :: as, b :: bs, rfl, rfl, fun name ha hb => hab ?_, rfl⟩
            exact (Option.some.inj ha).trans (Option.some.inj hb).symm

/-- A way goes up from what only the directory has, and down to what only the file has. -/
theorem exists_wayTo (directory file : List String) :
    ∃ common up down, directory = common ++ up ∧ file = common ++ down ∧
      (∀ name ∈ up.head?, name ∉ down.head?) ∧
      wayTo directory file = List.replicate up.length ".." ++ down := by
  obtain ⟨common, up, down, hdirectory, hfile, hheads, hdrop⟩ := exists_dropCommon directory file
  refine ⟨common, up, down, hdirectory, hfile, hheads, ?_⟩
  rw [wayTo, hdrop, ← List.map_const']

theorem mem_wayTo {directory file : List String} {name : String} (h : name ∈ wayTo directory file) :
    name = ".." ∨ name ∈ file := by
  obtain ⟨common, up, down, -, rfl, -, hway⟩ := exists_wayTo directory file
  rw [hway, List.mem_append] at h
  rcases h with h | h
  · exact Or.inl (List.eq_of_mem_replicate h)
  · exact Or.inr (List.mem_append_right common h)

/-! ### Where a way leads -/

/-- As many steps up as names that were walked down lead back. -/
theorem foldl_walkBack_dots {names : List String} (h : ".." ∉ names) (seen : List String) :
    (List.replicate names.length "..").foldl (walkBack true) (names ++ seen) = seen := by
  induction names with
  | nil => rfl
  | cons name rest ih =>
      rw [List.mem_cons, not_or] at h
      have hname : (name == "..") = false := beq_eq_false_iff_ne.2 (Ne.symm h.1)
      have hup : walkBack true (name :: (rest ++ seen)) ".." = rest ++ seen := by
        simp [walkBack, hname]
      rw [List.length_cons, List.replicate_succ, List.cons_append, List.foldl_cons, hup, ih h.2]

/-- The way from a directory to a file leads from the directory to the file. -/
theorem placeOf_append_wayTo {directory file : List String} (hdirectory : ".." ∉ directory)
    (hfile : ".." ∉ file) : placeOf (directory ++ wayTo directory file) = file := by
  obtain ⟨common, up, down, rfl, rfl, -, hway⟩ := exists_wayTo directory file
  have hup : ".." ∉ up.reverse := fun h =>
    hdirectory (List.mem_append_right common (List.mem_reverse.1 h))
  have hdown : ".." ∉ down := fun h => hfile (List.mem_append_right common h)
  rw [placeOf, hway, List.foldl_append, List.foldl_append, foldl_walkBack_of_not_mem hdirectory,
    List.append_nil, List.reverse_append, ← List.length_reverse, foldl_walkBack_dots hup,
    foldl_walkBack_of_not_mem hdown, List.reverse_append, List.reverse_reverse, List.reverse_reverse]

/-! ### Ways that tell where the file is -/

/-- What begins differently from the list that it begins is empty. -/
theorem eq_nil_of_heads {up rest : List String}
    (h : ∀ name ∈ up.head?, name ∉ (up ++ rest).head?) : up = [] := by
  cases up with
  | nil => rfl
  | cons name up => exact absurd rfl (h name rfl)

theorem wayTo_eq_nil_iff {directory file : List String} :
    wayTo directory file = [] ↔ directory = file := by
  obtain ⟨common, up, down, rfl, rfl, hheads, hway⟩ := exists_wayTo directory file
  rw [hway, List.append_eq_nil_iff, List.append_right_inj, List.replicate_eq_nil_iff,
    List.length_eq_zero_iff]
  constructor
  · rintro ⟨rfl, rfl⟩
    rfl
  · rintro rfl
    have hsame : ∀ name ∈ up.head?, name ∉ (up ++ []).head? := by rwa [List.append_nil]
    exact ⟨eq_nil_of_heads hsame, eq_nil_of_heads hsame⟩

theorem wayTo_eq_dots_iff {directory file : List String} (hfile : ".." ∉ file) :
    wayTo directory file = [".."] ↔ ∃ name, directory = file ++ [name] := by
  obtain ⟨common, up, down, rfl, rfl, hheads, hway⟩ := exists_wayTo directory file
  rw [hway]
  constructor
  · intro h
    have hdown : down = [] := by
      rw [List.eq_nil_iff_forall_not_mem]
      intro name hname
      have hmem : name ∈ [".."] := h ▸ List.mem_append_right _ hname
      exact hfile (List.mem_append_right common (List.mem_singleton.1 hmem ▸ hname))
    subst hdown
    have hlength : up.length = 1 := by simpa using congrArg List.length h
    obtain ⟨name, rfl⟩ := List.length_eq_one_iff.1 hlength
    exact ⟨name, by rw [List.append_nil]⟩
  · rintro ⟨name, h⟩
    rw [List.append_assoc, List.append_right_inj] at h
    subst h
    have hdown : down = [] := by
      cases down with
      | nil => rfl
      | cons first rest => exact absurd rfl (hheads first rfl)
    subst hdown
    rfl

theorem wayTo_eq_cons_iff {directory file rest : List String} {name : String} (hname : name ≠ "..") :
    wayTo directory file = name :: rest ↔ file = directory ++ name :: rest := by
  obtain ⟨common, up, down, rfl, rfl, hheads, hway⟩ := exists_wayTo directory file
  rw [hway]
  constructor
  · intro h
    cases up with
    | nil => rw [List.append_nil, ← h, List.length_nil, List.replicate_zero, List.nil_append]
    | cons first up =>
        rw [List.length_cons, List.replicate_succ, List.cons_append, List.cons.injEq] at h
        exact absurd h.1.symm hname
  · intro h
    rw [List.append_assoc, List.append_right_inj] at h
    subst h
    obtain rfl := eq_nil_of_heads hheads
    rfl

/-! ### The same way from another directory -/

section

variable {directory next file rest : List String} {name : String}

theorem wayTo_self_eq_iff : wayTo file file = wayTo next file ↔ next = file := by
  rw [wayTo_eq_nil_iff.2 rfl, eq_comm, wayTo_eq_nil_iff]

theorem wayTo_child_eq_iff (hfile : ".." ∉ file) :
    wayTo (file ++ [name]) file = wayTo next file ↔ ∃ other, next = file ++ [other] := by
  rw [(wayTo_eq_dots_iff hfile).2 ⟨name, rfl⟩, eq_comm, wayTo_eq_dots_iff hfile]

theorem wayTo_below_eq_iff (hname : name ≠ "..") :
    wayTo directory (directory ++ name :: rest) = wayTo next (directory ++ name :: rest) ↔
      next = directory := by
  rw [(wayTo_eq_cons_iff hname).2 rfl, eq_comm, wayTo_eq_cons_iff hname, List.append_left_inj, eq_comm]

end

end RouteBinder.FileSystem.Path
