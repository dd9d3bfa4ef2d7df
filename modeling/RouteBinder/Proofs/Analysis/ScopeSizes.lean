import RouteBinder.Analysis.Discovery
import RouteBinder.Analysis.Output
import RouteBinder.Proofs.Analysis.RecursionDepth

/-!
# RouteBinder.Proofs.Analysis.ScopeSizes

**What a scope holds is part of the source.** The values and functions that names are bound to, the
functions of the handlers and the values they respond with are all nodes of the module, so none of them is
larger than the module itself.
-/

namespace RouteBinder.Analysis

open Source

/-! ### Bindings -/

/-- The value and the function of a binding are no larger than that. -/
def Binding.FitsIn (binding : Binding) (size : Nat) : Prop :=
  ∀ node, binding.value = some node ∨ binding.function = some node → node.size ≤ size

theorem Binding.FitsIn.mono {binding : Binding} {size larger : Nat} (h : binding.FitsIn size)
    (hle : size ≤ larger) : binding.FitsIn larger := fun node hnode =>
  Nat.le_trans (h node hnode) hle

theorem mem_of_mem_bindAll {bindings : List Binding} {binding : Binding}
    (h : binding ∈ bindAll bindings) : binding ∈ bindings := by
  have hfold : ∀ (rest found : List Binding), binding ∈ rest.foldl bind found →
      binding ∈ found ∨ binding ∈ rest := by
    intro rest
    induction rest with
    | nil => exact fun found hb => Or.inl hb
    | cons first rest ih =>
        intro found hb
        rcases ih _ hb with hb | hb
        · rw [bind] at hb
          split at hb
          · exact Or.inl hb
          · rcases List.mem_append.1 hb with hb | hb
            · exact Or.inl hb
            · exact Or.inr (List.mem_singleton.1 hb ▸ List.mem_cons_self)
        · exact Or.inr (List.mem_cons_of_mem _ hb)
  rcases hfold bindings [] h with hb | hb
  · cases hb
  · exact hb

theorem fitsIn_declaratorBindings {declarator : Node} {binding : Binding}
    (h : binding ∈ declaratorBindings declarator) : binding.FitsIn declarator.size := by
  rw [declaratorBindings] at h
  intro node hnode
  split at h
  · cases h
  · split at h
    · obtain rfl := List.mem_singleton.1 h
      rcases hnode with hvalue | hfunction
      · exact (Node.size_field?_lt hvalue).le
      · exact (Node.size_field?_lt (Option.filter_eq_some_iff.1 hfunction).1).le
    · obtain ⟨name, -, rfl⟩ := List.mem_map.1 h
      rcases hnode with hvalue | hfunction
      · exact (Node.size_field?_lt hvalue).le
      · cases hfunction

theorem fitsIn_declarationBindings {statement : Node} {binding : Binding}
    (h : binding ∈ declarationBindings statement) : binding.FitsIn statement.size := by
  have hdeclarators : binding ∈ statement.declarators.flatMap declaratorBindings →
      binding.FitsIn statement.size := by
    intro h
    obtain ⟨declarator, hd, hb⟩ := List.mem_flatMap.1 h
    exact (fitsIn_declaratorBindings hb).mono (Node.inside_of_mem_declarators hd).size_lt.le
  have hnamed : ∀ make : String → Binding, (∀ name node, (make name).value = some node ∨
      (make name).function = some node → node = statement) →
      binding ∈ namedBinding statement make → binding.FitsIn statement.size := by
    intro make hmake h node hnode
    rw [namedBinding] at h
    split at h
    · cases h
    · obtain rfl := List.mem_singleton.1 h
      exact (congrArg Node.size (hmake _ node hnode)).le
  unfold declarationBindings at h
  split at h
  · exact hdeclarators h
  · exact hdeclarators h
  · refine hnamed _ (fun name node hnode => ?_) h
    rcases hnode with hnode | hnode <;> cases hnode
    rfl
  · refine hnamed _ (fun name node hnode => ?_) h
    rcases hnode with hnode | hnode <;> cases hnode
    rfl
  · refine hnamed _ (fun name node hnode => ?_) h
    rcases hnode with hnode | hnode <;> cases hnode
    rfl
  · cases h

theorem fitsIn_statementBindings {statement : Node} {binding : Binding}
    (h : binding ∈ statementBindings statement) : binding.FitsIn statement.size := by
  rw [statementBindings] at h
  split at h
  · rename_i declaration hdeclaration
    refine (fitsIn_declarationBindings h).mono ?_
    rw [exportedOrSelf?] at hdeclaration
    split at hdeclaration
    · exact (Node.size_field?_lt hdeclaration).le
    · cases hdeclaration
      exact Nat.le_refl _
  · cases h

theorem fitsIn_parameterBindings {param : Node} {binding : Binding} {size : Nat}
    (h : binding ∈ parameterBindings param) : binding.FitsIn size := by
  rw [parameterBindings] at h
  split at h
  · cases h
  · split at h
    · obtain rfl := List.mem_singleton.1 h
      rintro node (h | h) <;> cases h
    · obtain ⟨name, -, rfl⟩ := List.mem_map.1 h
      rintro node (h | h) <;> cases h

theorem fitsIn_bodyBindings {body : Node} {binding : Binding} (h : binding ∈ bodyBindings body) :
    binding.FitsIn body.size := by
  rw [bodyBindings] at h
  rcases List.mem_append.1 h with h | h
  · obtain ⟨declarator, hd, hb⟩ := List.mem_flatMap.1 h
    exact (fitsIn_declaratorBindings hb).mono
      (Node.atOrInside_of_mem_ownNodes (List.mem_filter.1 hd).1).size_le
  · obtain ⟨statement, hs, hb⟩ := List.mem_flatMap.1 h
    refine (fitsIn_declarationBindings hb).mono ?_
    split at hs
    · exact (Node.size_namedChild_lt (List.mem_filter.1 hs).1).le
    · cases hs

/-! ### Scopes -/

theorem fitsIn_ofModule {program : Node} {binding : Binding}
    (h : binding ∈ (Scope.ofModule program).own) : binding.FitsIn program.size := by
  obtain ⟨statement, hs, hb⟩ := List.mem_flatMap.1 (mem_of_mem_bindAll h)
  exact (fitsIn_statementBindings hb).mono (Node.size_namedChild_lt hs).le

/-- The scope of a function of a module holds parts of the module. -/
theorem fitsIn_ofFunction {program function : Node} (hf : function.size ≤ program.size) :
    (Scope.ofFunction function (Scope.ofModule program)).FitsIn program.size := by
  intro binding hb
  rcases List.mem_append.1 hb with hb | hb
  · rcases List.mem_append.1 (mem_of_mem_bindAll hb) with hb | hb
    · obtain ⟨param, -, hb⟩ := List.mem_flatMap.1 hb
      exact fitsIn_parameterBindings hb
    · cases hbody : function.field? .body with
      | none =>
          rw [hbody] at hb
          cases hb
      | some body =>
          rw [hbody] at hb
          exact (fitsIn_bodyBindings hb).mono ((Node.size_field?_lt hbody).le.trans hf)
  · exact fitsIn_ofModule hb

end RouteBinder.Analysis
