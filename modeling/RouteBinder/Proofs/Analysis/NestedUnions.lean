import RouteBinder.Proofs.Analysis.NormalTypes

/-!
# RouteBinder.Proofs.Analysis.NestedUnions

**Unions in unions.** A union takes its members apart, so it makes no difference whether some of them are
united beforehand (`unionOf_absorb`): what is repeated is dropped either way, and what is unknown is so
either way. The types have to be in normal form, since the members of a union are not taken apart again.
-/

namespace RouteBinder.TypeExpr

open Text

variable {type member : TypeExpr} {types members : List TypeExpr} {α : Type} [DecidableEq α]
  {permitted : String → Prop}

/-! ### Repetitions -/

/-- One more element, unless it is there already. -/
def keep (kept : List α) (x : α) : List α := if x ∈ kept then kept else kept ++ [x]

theorem distinct_eq_foldl (xs : List α) : distinct xs = xs.foldl keep [] := rfl

theorem mem_foldl_keep {xs kept : List α} {x : α} (h : x ∈ kept ∨ x ∈ xs) : x ∈ xs.foldl keep kept := by
  induction xs generalizing kept with
  | nil => exact h.resolve_right List.not_mem_nil
  | cons first rest ih =>
      have hfirst : first ∈ keep kept first := by
        rw [keep]
        split
        · assumption
        · exact List.mem_append_right _ (List.mem_singleton_self first)
      have hkept : x ∈ kept → x ∈ keep kept first := by
        intro h
        rw [keep]
        split
        · exact h
        · exact List.mem_append_left _ h
      refine ih ?_
      rcases h with h | h
      · exact Or.inl (hkept h)
      · rcases List.mem_cons.1 h with rfl | h
        · exact Or.inl hfirst
        · exact Or.inr h

theorem mem_distinct {xs : List α} {x : α} : x ∈ distinct xs ↔ x ∈ xs :=
  ⟨mem_of_mem_distinct, fun h => mem_foldl_keep (Or.inr h)⟩

theorem distinct_concat (xs : List α) (x : α) :
    distinct (xs ++ [x]) = if x ∈ xs then distinct xs else distinct xs ++ [x] := by
  rw [distinct_eq_foldl, List.foldl_append, List.foldl_cons, List.foldl_nil, keep,
    ← distinct_eq_foldl]
  simp only [mem_distinct]

/-- Repetitions can be dropped beforehand. -/
theorem foldl_keep_distinct (xs kept : List α) : (distinct xs).foldl keep kept = xs.foldl keep kept := by
  induction xs using List.reverseRecOn with
  | nil => rfl
  | append_singleton xs x ih =>
      rw [distinct_concat, List.foldl_append, List.foldl_cons, List.foldl_nil, ← ih]
      split
      · rename_i hx
        rw [ih, keep, if_pos (mem_foldl_keep (Or.inr hx))]
      · rw [List.foldl_append, List.foldl_cons, List.foldl_nil]

theorem distinct_append_distinct (before xs after : List α) :
    distinct (before ++ distinct xs ++ after) = distinct (before ++ xs ++ after) := by
  simp only [distinct_eq_foldl, List.foldl_append]
  rw [← distinct_eq_foldl xs, foldl_keep_distinct]

/-! ### Members -/

theorem unionOf_congr_distinct {others : List TypeExpr}
    (hany : (types.flatMap TypeExpr.members).any isUnknown =
      (others.flatMap TypeExpr.members).any isUnknown)
    (hdistinct : distinct (types.flatMap TypeExpr.members) = distinct (others.flatMap TypeExpr.members)) :
    unionOf types = unionOf others := by
  rw [unionOf, unionOf, hany, hdistinct]

theorem unionOf_of_unknown (h : (types.flatMap TypeExpr.members).any isUnknown = true) :
    unionOf types = .unknown := by
  rw [unionOf, h, if_pos rfl]

theorem NormalOver.members_ne_nil (h : NormalOver permitted type) : type.members ≠ [] := by
  cases h with
  | union hlength => exact List.ne_nil_of_length_pos (Nat.lt_of_lt_of_le Nat.zero_lt_two hlength)
  | _ => exact List.cons_ne_nil _ _

/-- The members of a union are those of the types that it is made from. -/
theorem members_unionOf (h : ∀ type ∈ types, NormalOver permitted type) (hne : types ≠ [])
    (hknown : (types.flatMap TypeExpr.members).any isUnknown = false) :
    (unionOf types).members = distinct (types.flatMap TypeExpr.members) := by
  have hparts : distinct (types.flatMap TypeExpr.members) ≠ [] := by
    obtain ⟨type, rest, rfl⟩ := List.exists_cons_of_ne_nil hne
    obtain ⟨part, parts, hmembers⟩ := List.exists_cons_of_ne_nil (h type List.mem_cons_self).members_ne_nil
    refine List.ne_nil_of_mem (a := part) (mem_foldl_keep (Or.inr ?_))
    rw [List.flatMap_cons, hmembers]
    exact List.mem_append_left _ List.mem_cons_self
  rw [unionOf, hknown, if_neg Bool.false_ne_true]
  split
  · rename_i hnil
    exact absurd hnil hparts
  · rename_i only honly
    have hmem : only ∈ types.flatMap TypeExpr.members :=
      mem_of_mem_distinct (honly ▸ List.mem_singleton_self only)
    obtain ⟨type, htype, hmem⟩ := List.mem_flatMap.1 hmem
    rw [honly, ((h type htype).of_mem_members hmem).2]
  · rfl

/-- A union in a union is taken apart. -/
theorem unionOf_absorb (before after : List TypeExpr) (h : ∀ type ∈ types, NormalOver permitted type)
    (hne : types ≠ []) : unionOf (before ++ unionOf types :: after) = unionOf (before ++ types ++ after) := by
  cases hknown : (types.flatMap TypeExpr.members).any isUnknown with
  | true =>
      rw [unionOf_of_unknown hknown, unionOf_of_unknown, unionOf_of_unknown]
      · rw [List.flatMap_append, List.flatMap_append, List.any_append, List.any_append, hknown,
          Bool.or_true, Bool.true_or]
      · rw [List.flatMap_append, List.any_append, List.flatMap_cons, List.any_append]
        exact Bool.or_true _
  | false =>
      have hmembers := members_unionOf h hne hknown
      have hany : (distinct (types.flatMap TypeExpr.members)).any isUnknown = false := by
        rw [List.any_eq_false] at hknown ⊢
        exact fun part hpart => hknown part (mem_of_mem_distinct hpart)
      have hleft : (before ++ unionOf types :: after).flatMap TypeExpr.members =
          before.flatMap TypeExpr.members ++ distinct (types.flatMap TypeExpr.members) ++
            after.flatMap TypeExpr.members := by
        rw [List.flatMap_append, List.flatMap_cons, hmembers, List.append_assoc]
      have hright : (before ++ types ++ after).flatMap TypeExpr.members =
          before.flatMap TypeExpr.members ++ types.flatMap TypeExpr.members ++
            after.flatMap TypeExpr.members := by
        rw [List.flatMap_append, List.flatMap_append]
      refine unionOf_congr_distinct ?_ ?_
      · rw [hleft, hright]
        simp only [List.any_append, hany, hknown]
      · rw [hleft, hright, distinct_append_distinct]

/-- The union of one type. -/
theorem unionOf_lone (h : NormalOver permitted type) : unionOf [type] = type := by
  cases h with
  | union hlength hnodup hmembers =>
      refine (unionOf_congr ?_).trans (unionOf_members hmembers hnodup hlength)
      rw [List.flatMap_singleton, flatMap_members hmembers]
      rfl
  | unknown => rfl
  | _ => exact unionOf_singleton ⟨rfl, rfl⟩

end RouteBinder.TypeExpr
