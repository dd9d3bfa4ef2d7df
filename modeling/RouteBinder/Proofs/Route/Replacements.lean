import RouteBinder.Proofs.Route.KeyPaths

/-!
# RouteBinder.Proofs.Route.Replacements

**What a replacement changes.** Everything apart from the place of a replacement stays, and a node on the way
there gets one new child and stays as it is otherwise: `RouteTree.ChangedAt` says so of the trees before and
after. It holds of a change of one child (`RouteTree.changedAt_setChild`), and it is passed on from a child to
the node above it (`RouteTree.ChangedAt.withChild`), so it holds of replacements at all paths of keys
(`RouteTree.changedAt_of_replaceWithin`).

A replacement that is not made reports the first node that its way misses
(`RouteTree.replaceWithin_eq_error`).
-/

namespace RouteBinder.Route

namespace RouteTree

variable {tree child child' live : RouteTree} {new : Option RouteTree} {key : String}
  {keys rest path : List String} {cause : NavigationError}

/-! ### Trees before and after -/

/-- Only what the keys lead to may be another in `live` than in `tree`. -/
structure ChangedAt (tree : RouteTree) (keys : List String) (live : RouteTree) : Prop where
  /-- What is neither above the place nor in it is the same. -/
  outside : ∀ other, ¬ keys <+: other → ¬ other <+: keys → live.nodeAt? other = tree.nodeAt? other
  /-- Every node on the way keeps what it carries, and all children but the next one on the way. -/
  onTheWay : ∀ front key back, keys = front ++ key :: back →
    ∃ node node', tree.nodeAt? front = some node ∧ live.nodeAt? front = some node' ∧
      node'.info = node.info ∧ ∀ other, other ≠ key → node'.child? other = node.child? other

theorem changedAt_setChild (tree : RouteTree) (key : String) (new : Option RouteTree) :
    ChangedAt tree [key] (tree.setChild key new) where
  outside := by
    intro other hbelow habove
    cases other with
    | nil => exact absurd List.nil_prefix habove
    | cons next rest =>
        have hnext : next ≠ key := by
          rintro rfl
          exact hbelow (List.prefix_append [next] rest)
        rw [nodeAt?_setChild_cons, if_neg hnext]
  onTheWay := by
    intro front next back heq
    obtain ⟨rfl, hlast⟩ := (List.append_eq_singleton_iff.1 heq.symm).resolve_right (by simp)
    cases hlast
    exact ⟨tree, tree.setChild key new, rfl, rfl, info_setChild tree key new,
      fun other hother => child?_setChild_of_ne tree hother new⟩

/-- A change in a child is a change in the node above it. -/
theorem ChangedAt.withChild (hc : tree.child? key = some child) (h : ChangedAt child rest child') :
    ChangedAt tree (key :: rest) (tree.withChild key child') where
  outside := by
    intro other hbelow habove
    cases other with
    | nil => exact absurd List.nil_prefix habove
    | cons next back =>
        change (tree.setChild key (some child')).nodeAt? (next :: back) = _
        rw [nodeAt?_setChild_cons]
        split
        · rename_i hnext
          subst hnext
          rw [List.cons_prefix_cons, and_iff_right rfl] at hbelow habove
          rw [nodeAt?_cons hc]
          exact h.outside back hbelow habove
        · rfl
  onTheWay := by
    intro front next back heq
    cases front with
    | nil =>
        cases heq
        exact ⟨tree, tree.withChild key child', rfl, rfl, rfl,
          fun other hother => child?_setChild_of_ne tree hother (some child')⟩
    | cons first front =>
        rw [List.cons_append, List.cons.injEq] at heq
        obtain ⟨rfl, hrest⟩ := heq
        obtain ⟨node, node', hnode, hnode', hkept⟩ := h.onTheWay front next back hrest
        exact ⟨node, node', (nodeAt?_cons hc front).trans hnode,
          (nodeAt?_cons (child?_withChild_self tree key child') front).trans hnode', hkept⟩

theorem changedAt_of_replaceWithin (hk : keys ≠ []) (h : tree.replaceWithin path new keys = .ok live) :
    ChangedAt tree keys live := by
  induction keys generalizing tree live with
  | nil => exact absurd rfl hk
  | cons key rest ih =>
      by_cases hr : rest = []
      · subst hr
        rw [replaceWithin_singleton] at h
        cases h
        exact changedAt_setChild tree key new
      · obtain ⟨child, child', hc, hw, rfl⟩ := replaceWithin_cons_ok hr h
        exact (ih hr hw).withChild hc

theorem AllOrdered.replaceWithin (ht : tree.AllOrdered) (hnew : ∀ node ∈ new, node.AllOrdered)
    (hk : keys ≠ []) (h : tree.replaceWithin path new keys = .ok live) : live.AllOrdered := by
  induction keys generalizing tree live with
  | nil => exact absurd rfl hk
  | cons key rest ih =>
      by_cases hr : rest = []
      · subst hr
        rw [replaceWithin_singleton] at h
        cases h
        exact ht.setChild key hnew
      · obtain ⟨child, child', hc, hw, rfl⟩ := replaceWithin_cons_ok hr h
        exact ht.setChild key fun node hn => Option.some.inj hn ▸ ih (ht.child hc) hr hw

/-! ### Ways that are missing -/

/-- What is reported is the first key on the way that no node has. -/
theorem replaceWithin_eq_error (hk : keys ≠ [])
    (h : tree.replaceWithin path new keys = .error cause) :
    ∃ front key back, keys = front ++ key :: back ∧ back ≠ [] ∧ (tree.nodeAt? front).isSome ∧
      tree.nodeAt? (front ++ [key]) = none ∧ cause = ⟨key, path⟩ := by
  induction keys generalizing tree cause with
  | nil => exact absurd rfl hk
  | cons key rest ih =>
      have hr : rest ≠ [] := by
        rintro rfl
        rw [replaceWithin_singleton] at h
        cases h
      cases hc : tree.child? key with
      | none =>
          rw [replaceWithin_of_child?_eq_none path new hr hc] at h
          cases h
          refine ⟨[], key, rest, rfl, hr, rfl, ?_, rfl⟩
          rw [List.nil_append, nodeAt?_cons_eq, hc, Option.bind_none]
      | some child =>
          rw [replaceWithin_of_child?_eq_some path new hr hc] at h
          cases hw : child.replaceWithin path new rest with
          | ok child' =>
              rw [hw] at h
              cases h
          | error inner =>
              rw [hw] at h
              cases h
              obtain ⟨front, next, back, rfl, hback, hfront, hnone, hcause⟩ := ih hr hw
              refine ⟨key :: front, next, back, rfl, hback, ?_, ?_, hcause⟩
              · rwa [nodeAt?_cons hc]
              · rwa [List.cons_append, nodeAt?_cons hc]

/-! ### Writing back -/

/-- Putting a node where it is changes nothing. -/
theorem replaceWithin_nodeAt? {node : RouteTree} (hk : keys ≠ []) (ht : tree.AllOrdered)
    (h : tree.nodeAt? keys = some node) :
    tree.replaceWithin path (some node) keys = .ok tree := by
  induction keys generalizing tree with
  | nil => exact absurd rfl hk
  | cons key rest ih =>
      rw [nodeAt?_cons_eq] at h
      obtain ⟨child, hc, h⟩ := Option.bind_eq_some_iff.1 h
      have hback := setChild_child? ht.ordered key
      rw [hc] at hback
      by_cases hr : rest = []
      · subst hr
        cases h
        rw [replaceWithin_singleton, hback]
      · rw [replaceWithin_of_child?_eq_some path _ hr hc, ih hr (ht.child hc) h]
        exact congrArg Except.ok hback

/-! ### Replacements in whole trees -/

theorem replaceAt_nil : tree.replaceAt [] new = .ok live ↔ new = some live := by
  cases new with
  | none => exact iff_of_false nofun nofun
  | some node =>
      exact ⟨fun h => congrArg some (Except.ok.inj h), fun h => congrArg Except.ok (Option.some.inj h)⟩

/-- A replacement that is made has its node in its place and changes nothing else. What it leaves behind is in
order, and a second one in the same place counts as if it were the first. -/
theorem replaceAt_eq_ok (ht : tree.AllOrdered) (hnew : ∀ node ∈ new, node.AllOrdered)
    (h : tree.replaceAt keys new = .ok live) :
    live.nodeAt? keys = new ∧ ChangedAt tree keys live ∧ live.AllOrdered ∧
      ∀ second, live.replaceAt keys second = tree.replaceAt keys second := by
  by_cases hk : keys = []
  · subst hk
    obtain rfl := replaceAt_nil.1 h
    refine ⟨rfl, ⟨fun other hbelow => absurd List.nil_prefix hbelow, ?_⟩, hnew live rfl, fun _ => rfl⟩
    intro front key back heq
    simp at heq
  · exact ⟨nodeAt?_replaceWithin hk h, changedAt_of_replaceWithin hk h, ht.replaceWithin hnew hk h,
      fun second => replaceWithin_again hk ht h⟩

/-- A replacement fails exactly when it would leave no tree, or when a node on its way is missing; the place
itself may be new. -/
theorem exists_replaceAt_eq_error_iff :
    (∃ cause, tree.replaceAt keys new = .error cause) ↔ keys = [] ∧ new = none ∨
      ∃ front, front ≠ [] ∧ front <+: keys ∧ front ≠ keys ∧ tree.nodeAt? front = none := by
  constructor
  · rintro ⟨cause, h⟩
    by_cases hk : keys = []
    · subst hk
      cases new with
      | none => exact Or.inl ⟨rfl, rfl⟩
      | some node => cases h
    · obtain ⟨front, key, back, rfl, hback, -, hnone, -⟩ := replaceWithin_eq_error hk h
      refine Or.inr ⟨front ++ [key], by simp, ⟨back, by simp⟩, ?_, hnone⟩
      simpa using hback.symm
  · intro hmissing
    cases h : tree.replaceAt keys new with
    | error cause => exact ⟨cause, rfl⟩
    -- All nodes on the way of a replacement that is made are there.
    | ok live =>
        exfalso
        rcases hmissing with ⟨rfl, rfl⟩ | ⟨front, hne, ⟨back, rfl⟩, hproper, hnone⟩
        · cases h
        · have hback : back ≠ [] := by
            rintro rfl
            exact hproper (List.append_nil front).symm
          obtain ⟨key, back, rfl⟩ := List.exists_cons_of_ne_nil hback
          obtain ⟨node, -, hnode, -⟩ := (changedAt_of_replaceWithin
            (List.append_ne_nil_of_left_ne_nil hne _) h).onTheWay front key back rfl
          rw [hnone] at hnode
          cases hnode

/-- Replacements at key paths: when they fail, what they change, and that they can be taken back. -/
theorem replaceAt_laws (ht : tree.AllOrdered) (hnew : ∀ node ∈ new, node.AllOrdered)
    (keys : List String) :
    ((∃ cause, tree.replaceAt keys new = .error cause) ↔ keys = [] ∧ new = none ∨
      ∃ front, front ≠ [] ∧ front <+: keys ∧ front ≠ keys ∧ tree.nodeAt? front = none) ∧
    (∀ live, tree.replaceAt keys new = .ok live →
      live.nodeAt? keys = new ∧ ChangedAt tree keys live ∧ live.AllOrdered ∧
        ∀ second, live.replaceAt keys second = tree.replaceAt keys second) ∧
    ∀ node, tree.nodeAt? keys = some node → tree.replaceAt keys (some node) = .ok tree := by
  refine ⟨exists_replaceAt_eq_error_iff, fun live h => replaceAt_eq_ok ht hnew h, ?_⟩
  intro node h
  by_cases hk : keys = []
  · subst hk
    exact replaceAt_nil.2 h.symm
  · exact replaceWithin_nodeAt? hk ht h

theorem allOrdered_childless (info : RouteInfo) : (node info []).AllOrdered := by
  intro keys found h
  cases keys with
  | nil =>
      cases h
      exact Keyed.Sorted.nil
  | cons key rest => cases h

/-- A tree with one route in it, for which a directory may be known. -/
def postsTree (directory : Option FileSystem.Path) : RouteTree :=
  .node { segment := "app" } [("posts", .node { segment := "posts" }
    [("postId", .node { segment := "[postId]", directory } [])])]

/-- The node of the route is replaced, and a node below one that is not there is not. -/
theorem replaceAt_laws_posts :
    (postsTree none).AllOrdered ∧
      (node { segment := "[postId]", directory := some ⟨.root, ["x"]⟩ } []).AllOrdered ∧
      ChangedAt (postsTree none) ["posts", "postId"] (postsTree (some ⟨.root, ["x"]⟩)) ∧
      ∃ cause, (postsTree none).replaceAt ["ghost", "deep"]
        (some (.node { segment := "[postId]", directory := some ⟨.root, ["x"]⟩ } [])) = .error cause := by
  have htree : (postsTree none).AllOrdered :=
    (allOrdered_childless { segment := "app" }).setChild "posts" fun posts hposts =>
      Option.some.inj hposts ▸ (allOrdered_childless { segment := "posts" }).setChild "postId"
        fun leaf hleaf => Option.some.inj hleaf ▸ allOrdered_childless { segment := "[postId]" }
  have hnew := allOrdered_childless { segment := "[postId]", directory := some ⟨.root, ["x"]⟩ }
  refine ⟨htree, hnew, ?_, ?_⟩
  · exact ((replaceAt_laws htree (fun node hn => Option.some.inj hn ▸ hnew)
      ["posts", "postId"]).2.1 _ rfl).2.1
  · refine (replaceAt_laws htree (fun node hn => Option.some.inj hn ▸ hnew) ["ghost", "deep"]).1.2 ?_
    exact Or.inr ⟨["ghost"], by decide, by decide, by decide, rfl⟩

end RouteTree

end RouteBinder.Route
