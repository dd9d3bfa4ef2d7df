import Mathlib.Data.Option.Basic
import RouteBinder.Proofs.Route.KeyPaths

/-!
# RouteBinder.Proofs.Route.Refresh

**Taking nodes over from another tree.** `RouteTree.refresh` puts the node of a fresh tree in the place
that a path of keys leads to, and does nothing when the way there is missing. That is what a replacement
does when it takes its new node from the fresh tree (`RouteTree.refresh_of_replaceWithin_eq_ok`), and
when it fails (`RouteTree.refresh_of_replaceWithin_eq_error`).

All nodes come from one tree, so it does not matter in which order they are taken over
(`RouteTree.refresh_comm`): where one path leads on from the other, the longer one finds a place that is
up to date already, or is filled again when the shorter one comes second.
-/

namespace RouteBinder.Route

namespace RouteTree

/-! ### Refreshing -/

/-- The tree, if there is one, with the node that the keys lead to in a fresh tree. -/
def refresh (fresh : Option RouteTree) : List String → Option RouteTree → Option RouteTree
  | [], _ => fresh
  | _ :: _, none => none
  | key :: rest, some tree =>
    some (tree.setChild key (refresh (fresh.bind (·.child? key)) rest (tree.child? key)))

variable {fresh tree : Option RouteTree}

theorem forall_child?_allOrdered (h : ∀ node ∈ tree, node.AllOrdered) (key : String) :
    ∀ node ∈ tree.bind (·.child? key), node.AllOrdered := by
  intro child hchild
  obtain ⟨node, hnode, hchild⟩ := Option.bind_eq_some_iff.1 hchild
  exact (h node hnode).child hchild

theorem allOrdered_refresh (hfresh : ∀ node ∈ fresh, node.AllOrdered)
    (htree : ∀ node ∈ tree, node.AllOrdered) (keys : List String) :
    ∀ node ∈ refresh fresh keys tree, node.AllOrdered := by
  induction keys generalizing fresh tree with
  | nil => exact hfresh
  | cons key rest ih =>
      cases tree with
      | none => exact fun node hn => by cases hn
      | some root =>
          intro node hn
          obtain rfl := Option.some.inj hn
          have hroot := htree root rfl
          exact hroot.setChild key (ih (forall_child?_allOrdered hfresh key) fun child hc =>
            hroot.child hc)

/-- A tree is up to date with itself. -/
theorem refresh_self (h : ∀ node ∈ tree, node.AllOrdered) (keys : List String) :
    refresh tree keys tree = tree := by
  induction keys generalizing tree with
  | nil => rfl
  | cons key rest ih =>
      cases tree with
      | none => rfl
      | some root =>
          have hroot := h root rfl
          have hchild : refresh (root.child? key) rest (root.child? key) = root.child? key :=
            ih fun child hc => hroot.child hc
          change some (root.setChild key (refresh (root.child? key) rest (root.child? key))) = _
          rw [hchild, setChild_child? hroot.ordered]

/-- Two nodes of one fresh tree can be taken over in either order. -/
theorem refresh_comm (hfresh : ∀ node ∈ fresh, node.AllOrdered)
    (htree : ∀ node ∈ tree, node.AllOrdered) (first second : List String) :
    refresh fresh second (refresh fresh first tree) =
      refresh fresh first (refresh fresh second tree) := by
  induction first generalizing fresh tree second with
  | nil => exact refresh_self hfresh second
  | cons key rest ih =>
      cases second with
      | nil => exact (refresh_self hfresh (key :: rest)).symm
      | cons key' rest' =>
          cases tree with
          | none => rfl
          | some root =>
              have hroot := htree root rfl
              simp only [refresh]
              by_cases hk : key = key'
              -- Both go on below the same child.
              · subst hk
                rw [child?_setChild_self, child?_setChild_self, setChild_setChild hroot.ordered,
                  setChild_setChild hroot.ordered]
                rw [ih (forall_child?_allOrdered hfresh key) (fun child hc => hroot.child hc) rest']
              · rw [child?_setChild_of_ne root (Ne.symm hk), child?_setChild_of_ne root hk,
                  setChild_comm hroot.ordered hk]

/-! ### Replacements -/

/-- A replacement by the node of a fresh tree takes this node over. -/
theorem refresh_of_replaceWithin_eq_ok {path keys : List String} {root result : RouteTree}
    (hk : keys ≠ [])
    (h : root.replaceWithin path (fresh.bind (·.nodeAt? keys)) keys = .ok result) :
    refresh fresh keys (some root) = some result := by
  induction keys generalizing fresh root result with
  | nil => exact absurd rfl hk
  | cons key rest ih =>
      have hnew : fresh.bind (·.nodeAt? (key :: rest)) =
          (fresh.bind (·.child? key)).bind (·.nodeAt? rest) := by
        cases fresh with
        | none => rfl
        | some node => exact nodeAt?_cons_eq node key rest
      rw [hnew] at h
      obtain ⟨child?, rfl, ⟨rfl, rfl⟩ | ⟨hrest, child, child', hc, hw, rfl⟩⟩ :=
        replaceWithin_cons_eq_ok.1 h
      · simp [refresh, nodeAt?]
      · rw [refresh, hc, ih hrest hw]

/-- A replacement whose way is missing changes nothing, and there is nothing to take over. -/
theorem refresh_of_replaceWithin_eq_error {path keys : List String} {new : Option RouteTree}
    {root : RouteTree} {cause : NavigationError} (hroot : root.AllOrdered) (hk : keys ≠ [])
    (h : root.replaceWithin path new keys = .error cause) :
    refresh fresh keys (some root) = some root := by
  induction keys generalizing fresh root cause with
  | nil => exact absurd rfl hk
  | cons key rest ih =>
      have hrest : rest ≠ [] := by
        rintro rfl
        rw [replaceWithin_singleton] at h
        cases h
      have hchild : refresh (fresh.bind (·.child? key)) rest (root.child? key) = root.child? key := by
        cases hc : root.child? key with
        | none =>
            obtain ⟨next, back, rfl⟩ := List.exists_cons_of_ne_nil hrest
            rfl
        | some child =>
            rw [replaceWithin_of_child?_eq_some path new hrest hc] at h
            cases hw : child.replaceWithin path new rest with
            | ok child' =>
                rw [hw] at h
                cases h
            | error inner => exact ih (hroot.child hc) hrest hw
      rw [refresh, hchild, setChild_child? hroot.ordered]

end RouteTree

end RouteBinder.Route
