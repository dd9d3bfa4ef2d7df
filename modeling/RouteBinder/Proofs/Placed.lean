import Mathlib.Data.List.Basic
import Mathlib.Data.List.Induction
import Mathlib.Data.Prod.Lex

/-!
# RouteBinder.Proofs.Placed

**Lists in the order of places.** Things stand at places, and a list goes through them in the order of the
places (`InOrder`). Then the first item of the list is what stands in front of everything else
(`InOrder.head?_eq_some_iff`), and without its repetitions the list has what is met earlier in front of what
is met later (`InOrder.pairwise_eraseDups`). Parts of things have a place of their own in the thing, and are
ordered by both places (`InOrder.flatMap`).
-/

namespace RouteBinder

variable {ι κ α β : Type} [LinearOrder ι] [LinearOrder κ] {At : ι → α → Prop} {items : List α}
  {item : α}

/-- The list has what stands at each place, in the order of the places. -/
def InOrder (At : ι → α → Prop) (items : List α) : Prop :=
  ∃ placed : List (ι × α), placed.map Prod.snd = items ∧ placed.Pairwise (fun a b => a.1 < b.1) ∧
    ∀ place item, (place, item) ∈ placed ↔ At place item

/-- Everything else stands behind it. -/
def IsFirst (At : ι → α → Prop) (item : α) : Prop :=
  ∃ place, At place item ∧ ∀ other item', At other item' → place ≤ other

theorem eraseDups_concat [DecidableEq α] (items : List α) (item : α) :
    (items ++ [item]).eraseDups = if item ∈ items then items.eraseDups else items.eraseDups ++ [item] := by
  rw [List.eraseDups_append]
  split <;> simp_all [List.removeAll, List.eraseDups_cons]

namespace InOrder

theorem congr {At' : ι → α → Prop} (h : InOrder At items)
    (hiff : ∀ place item, At place item ↔ At' place item) : InOrder At' items := by
  obtain rfl : At = At' := funext fun place => funext fun item => propext (hiff place item)
  exact h

theorem nil (h : ∀ place item, ¬ At place item) : InOrder At [] :=
  ⟨[], rfl, List.Pairwise.nil, fun place item => iff_of_false List.not_mem_nil (h place item)⟩

theorem singleton (place : ι) (h : ∀ other item', At other item' ↔ other = place ∧ item' = item) :
    InOrder At [item] :=
  ⟨[(place, item)], rfl, List.pairwise_singleton _ _, fun other item' => by
    rw [h, List.mem_singleton, Prod.ext_iff]⟩

/-- The items of a list stand at their positions. -/
theorem ofPositions (items : List α) :
    InOrder (fun (place : Nat) item => items[place]? = some item) items := by
  refine ⟨items.zipIdx.map Prod.swap, ?_, ?_, fun place item => ?_⟩
  · rw [List.map_map, show Prod.snd ∘ Prod.swap = Prod.fst from rfl, List.zipIdx_map_fst]
  · have hpositions : (items.zipIdx.map Prod.snd).Pairwise (· < ·) := by
      rw [List.zipIdx_map_snd]
      exact List.pairwise_lt_range'
    rw [List.pairwise_map] at hpositions ⊢
    exact hpositions
  · simp only [List.mem_map, Prod.exists, Prod.swap_prod_mk, Prod.mk.injEq]
    constructor
    · rintro ⟨_, _, hmem, rfl, rfl⟩
      exact List.mem_zipIdx_iff_getElem?.1 hmem
    · exact fun h => ⟨item, place, List.mem_zipIdx_iff_getElem?.2 h, rfl, rfl⟩

theorem mem_iff (h : InOrder At items) : item ∈ items ↔ ∃ place, At place item := by
  obtain ⟨placed, rfl, -, hat⟩ := h
  simp only [List.mem_map, Prod.exists, ← hat]
  constructor
  · rintro ⟨place, _, hmem, rfl⟩
    exact ⟨place, hmem⟩
  · exact fun ⟨place, hmem⟩ => ⟨place, item, hmem, rfl⟩

/-- What is left of a list keeps its place. -/
theorem filterMap (f : α → Option β) (h : InOrder At items) :
    InOrder (fun place result => ∃ item, At place item ∧ f item = some result) (items.filterMap f) := by
  obtain ⟨placed, rfl, hpairwise, hat⟩ := h
  refine ⟨placed.filterMap fun (place, item) => (f item).map fun result => (place, result), ?_, ?_, ?_⟩
  · rw [List.map_filterMap, List.filterMap_map]
    refine List.filterMap_congr fun ⟨place, item⟩ _ => ?_
    rw [Option.map_map, Function.comp_apply]
    exact Option.map_id' ▸ rfl
  · refine hpairwise.filterMap _ fun ⟨place, item⟩ ⟨place', item'⟩ hlt result hresult other hother => ?_
    obtain ⟨_, -, rfl⟩ := Option.map_eq_some_iff.1 hresult
    obtain ⟨_, -, rfl⟩ := Option.map_eq_some_iff.1 hother
    exact hlt
  · intro place result
    simp only [List.mem_filterMap, Option.map_eq_some_iff, Prod.exists, Prod.mk.injEq, hat]
    constructor
    · rintro ⟨_, item, hitem, _, hresult, rfl, rfl⟩
      exact ⟨item, hitem, hresult⟩
    · exact fun ⟨item, hitem, hresult⟩ => ⟨place, item, hitem, result, hresult, rfl, rfl⟩

/-- The parts of each item stand in its place, in their order. -/
theorem flatMap {Within : α → κ → β → Prop} {parts : α → List β} (h : InOrder At items)
    (hparts : ∀ item, InOrder (Within item) (parts item)) :
    InOrder (fun (place : ι ×ₗ κ) part =>
      ∃ item, At (ofLex place).1 item ∧ Within item (ofLex place).2 part) (items.flatMap parts) := by
  obtain ⟨placed, rfl, hpairwise, hat⟩ := h
  choose within hwithin hinside hpart using hparts
  refine ⟨placed.flatMap fun (place, item) =>
    (within item).map fun (inner, part) => (toLex (place, inner), part), ?_, ?_, ?_⟩
  · rw [List.map_flatMap, List.flatMap_map]
    refine List.flatMap_congr fun ⟨place, item⟩ _ => ?_
    rw [List.map_map, ← hwithin item]
    rfl
  · rw [List.pairwise_flatMap]
    refine ⟨fun ⟨place, item⟩ _ => List.pairwise_map.2 ((hinside item).imp ?_),
      hpairwise.imp fun hlt => ?_⟩
    · exact fun hlt => Prod.Lex.toLex_lt_toLex.2 (Or.inr ⟨rfl, hlt⟩)
    · simp only [List.mem_map, forall_exists_index, and_imp]
      rintro _ _ - rfl _ _ - rfl
      exact Prod.Lex.toLex_lt_toLex.2 (Or.inl hlt)
  · intro place part
    simp only [List.mem_flatMap, List.mem_map, Prod.exists, Prod.mk.injEq, hat, hpart]
    constructor
    · rintro ⟨outer, item, hitem, inner, _, hinner, rfl, rfl⟩
      exact ⟨item, hitem, hinner⟩
    · exact fun ⟨item, hitem, hinner⟩ => ⟨_, item, hitem, _, part, hinner, rfl, rfl⟩

theorem head?_eq_some_iff (h : InOrder At items) : items.head? = some item ↔ IsFirst At item := by
  obtain ⟨placed, rfl, hpairwise, hat⟩ := h
  cases placed with
  | nil =>
      refine iff_of_false nofun ?_
      rintro ⟨place, hplace, -⟩
      exact absurd ((hat place item).2 hplace) List.not_mem_nil
  | cons first rest =>
      obtain ⟨place, first⟩ := first
      rw [List.map_cons, List.head?_cons, Option.some.injEq]
      have hbefore : ∀ other item', At other item' → (other = place ∧ item' = first) ∨ place < other := by
        intro other item' hother
        rcases List.mem_cons.1 ((hat other item').2 hother) with heq | hmem
        · exact Or.inl (Prod.ext_iff.1 heq)
        · exact Or.inr (List.rel_of_pairwise_cons hpairwise hmem)
      have hfirst : At place first := (hat place first).1 List.mem_cons_self
      constructor
      · rintro rfl
        refine ⟨place, hfirst, fun other item' hother => ?_⟩
        rcases hbefore other item' hother with ⟨rfl, -⟩ | hlt
        · exact le_rfl
        · exact hlt.le
      · rintro ⟨other, hother, hleast⟩
        rcases hbefore other item hother with ⟨-, rfl⟩ | hlt
        · rfl
        · exact absurd (hleast place first hfirst) (not_le.2 hlt)

/-- Without repetitions an item that is met earlier stands in front of one that is met later. -/
theorem pairwise_eraseDups [DecidableEq α] (h : InOrder At items) :
    items.eraseDups.Pairwise fun item later =>
      ∃ place, At place item ∧ ∀ other, At other later → place < other := by
  obtain ⟨placed, rfl, hpairwise, hat⟩ := h
  simp only [← hat]
  clear hat
  induction placed using List.reverseRecOn with
  | nil => exact List.Pairwise.nil
  | append_singleton placed last ih =>
      obtain ⟨lastPlace, last⟩ := last
      obtain ⟨hplaced, -, hlast⟩ := List.pairwise_append.1 hpairwise
      have hbefore : ∀ place item, (place, item) ∈ placed → place < lastPlace := fun place item hmem =>
        hlast _ hmem _ (List.mem_singleton_self _)
      have hold : (placed.map Prod.snd).eraseDups.Pairwise fun item later =>
          ∃ place, (place, item) ∈ placed ++ [(lastPlace, last)] ∧
            ∀ other, (other, later) ∈ placed ++ [(lastPlace, last)] → place < other := by
        refine (ih hplaced).imp fun ⟨place, hmem, hleast⟩ => ⟨place, List.mem_append_left _ hmem, ?_⟩
        intro other hother
        rcases List.mem_append.1 hother with hother | hother
        · exact hleast other hother
        · obtain ⟨rfl, -⟩ := Prod.mk.inj (List.mem_singleton.1 hother)
          exact hbefore place _ hmem
      rw [List.map_append, List.map_singleton, eraseDups_concat]
      split
      · exact hold
      · rename_i hnew
        refine List.pairwise_append.2 ⟨hold, List.pairwise_singleton _ _, fun item hitem later hlater => ?_⟩
        obtain ⟨⟨place, _⟩, hmem, rfl⟩ := List.mem_map.1 (List.mem_eraseDups.1 hitem)
        obtain rfl := List.mem_singleton.1 hlater
        refine ⟨place, List.mem_append_left _ hmem, fun other hother => ?_⟩
        rcases List.mem_append.1 hother with hother | hother
        · exact absurd (List.mem_map_of_mem (f := Prod.snd) hother) hnew
        · obtain ⟨rfl, -⟩ := Prod.mk.inj (List.mem_singleton.1 hother)
          exact hbefore place _ hmem

end InOrder

end RouteBinder
