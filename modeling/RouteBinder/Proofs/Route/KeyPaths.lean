import RouteBinder.Proofs.Keyed
import RouteBinder.Route.RouteTree

/-!
# RouteBinder.Proofs.Route.KeyPaths

**Route trees by their keys.** A node whose children are in order is determined by what it carries
itself and by what `RouteTree.child?` answers (`RouteTree.ext_of_child?`). The operations on nodes are
described in these terms:

* `RouteTree.setChild` is both `withChild` and `withoutChild`;
* `RouteTree.child?_merge` and `RouteTree.child?_addChild`: what is there first is kept; and
* `RouteTree.replaceWithin_cons_eq_ok`: a replacement at a path of keys is a change of one child.
-/

namespace RouteBinder.Route

namespace RouteTree

/-! ### Extensionality -/

/-- The children are in the order of their keys. -/
def Ordered (tree : RouteTree) : Prop := Keyed.Sorted tree.children

instance (tree : RouteTree) : Decidable tree.Ordered :=
  inferInstanceAs (Decidable (Keyed.Sorted tree.children))

theorem ext_of_child? {s t : RouteTree} (hs : s.Ordered) (ht : t.Ordered) (hi : s.info = t.info)
    (hc : ∀ key, s.child? key = t.child? key) : s = t := by
  cases s with
  | node info children =>
      cases t with
      | node info' children' =>
          cases hi
          exact congrArg (node info) (Keyed.Sorted.ext hs ht hc)

/-! ### Changing one child -/

/-- The tree with another child, or none, at a key. -/
def setChild (tree : RouteTree) (key : String) : Option RouteTree → RouteTree
  | some child => tree.withChild key child
  | none => tree.withoutChild key

@[simp] theorem info_setChild (tree : RouteTree) (key : String) (new : Option RouteTree) :
    (tree.setChild key new).info = tree.info := by
  cases new <;> rfl

theorem child?_setChild (tree : RouteTree) (key other : String) (new : Option RouteTree) :
    (tree.setChild key new).child? other = if other = key then new else tree.child? other := by
  cases new with
  | none => exact Keyed.lookup_remove key other tree.children
  | some child => exact Keyed.lookup_put key other child tree.children

@[simp] theorem child?_setChild_self (tree : RouteTree) (key : String) (new : Option RouteTree) :
    (tree.setChild key new).child? key = new := by
  rw [child?_setChild, if_pos rfl]

theorem child?_setChild_of_ne (tree : RouteTree) {key other : String} (h : other ≠ key)
    (new : Option RouteTree) : (tree.setChild key new).child? other = tree.child? other := by
  rw [child?_setChild, if_neg h]

theorem Ordered.setChild {tree : RouteTree} (h : tree.Ordered) (key : String)
    (new : Option RouteTree) : (tree.setChild key new).Ordered := by
  cases new with
  | none => exact Keyed.Sorted.remove h key
  | some child => exact Keyed.Sorted.put h key child

/-- The last of two changes at one key counts. -/
theorem setChild_setChild {tree : RouteTree} (h : tree.Ordered) (key : String)
    (first second : Option RouteTree) :
    (tree.setChild key first).setChild key second = tree.setChild key second := by
  refine ext_of_child? ((h.setChild _ _).setChild _ _) (h.setChild _ _) (by simp) fun other => ?_
  rw [child?_setChild, child?_setChild, child?_setChild]
  split <;> rfl

/-- Setting what is there changes nothing. -/
theorem setChild_child? {tree : RouteTree} (h : tree.Ordered) (key : String) :
    tree.setChild key (tree.child? key) = tree := by
  refine ext_of_child? (h.setChild _ _) h (by simp) fun other => ?_
  rw [child?_setChild]
  split
  · rename_i heq
    rw [heq]
  · rfl

/-- Changes at two keys can be made in either order. -/
theorem setChild_comm {tree : RouteTree} (h : tree.Ordered) {first second : String}
    (hne : first ≠ second) (new new' : Option RouteTree) :
    (tree.setChild first new).setChild second new' =
      (tree.setChild second new').setChild first new := by
  refine ext_of_child? ((h.setChild _ _).setChild _ _) ((h.setChild _ _).setChild _ _) (by simp)
    fun other => ?_
  rw [child?_setChild, child?_setChild, child?_setChild, child?_setChild]
  by_cases hfirst : other = first
  · rw [if_pos hfirst, if_pos hfirst, if_neg (hfirst ▸ hne)]
  · rw [if_neg hfirst, if_neg hfirst]

/-! ### Adding and folding -/

/-- What a node carries itself once another node is folded into it. -/
def foldInfo (info other : RouteInfo) : RouteInfo :=
  { info with
    handlers := info.handlers ++
      other.handlers.filter fun h => !(info.handlers.find? (·.verb == h.verb)).isSome
    imports := info.imports ++ other.imports }

theorem info_merge (tree other : RouteTree) :
    (merge tree other).value.info = foldInfo tree.info other.info := by
  change ({ tree.info with
    handlers := (mergeHandlers tree other).value
    imports := tree.imports ++ other.imports } : RouteInfo) = _
  rw [mergeHandlers, List.partition_eq_filter_filter]
  rfl

theorem children_merge (tree other : RouteTree) :
    (merge tree other).value.children =
      (other.children.filter fun e => !(tree.child? e.1).isSome).foldl
        (fun es e => Keyed.put e.1 e.2 es) tree.children := by
  change (mergeChildren tree other).value = _
  rw [mergeChildren, List.partition_eq_filter_filter]
  rfl

theorem Ordered.merge {tree : RouteTree} (h : tree.Ordered) (other : RouteTree) :
    (RouteTree.merge tree other).value.Ordered := by
  rw [Ordered, children_merge]
  exact Keyed.Sorted.foldl_put h _

/-- Folding adds the children whose keys are not taken. -/
theorem child?_merge (tree : RouteTree) {other : RouteTree} (h : other.Ordered) (key : String) :
    (merge tree other).value.child? key = (tree.child? key).or (other.child? key) := by
  have hnew : Keyed.Sorted (other.children.filter fun e => !(tree.child? e.1).isSome) :=
    List.Pairwise.filter _ h
  rw [child?, children_merge, Keyed.lookup_foldl_put hnew,
    Keyed.lookup_filter fun key => !(tree.child? key).isSome]
  change (if (!(tree.child? key).isSome) = true then other.child? key else none).or
    (tree.child? key) = _
  cases tree.child? key <;> simp

theorem addChild_eq_setChild (tree : RouteTree) (key : String) (child : RouteTree) :
    (tree.addChild key child).value =
      if (tree.child? key).isSome then tree else tree.setChild key (some child) := by
  rw [addChild]
  cases tree.child? key <;> rfl

/-! ### Key paths -/

@[simp] theorem replaceWithin_singleton (path : List String) (new : Option RouteTree)
    (tree : RouteTree) (key : String) :
    tree.replaceWithin path new [key] = .ok (tree.setChild key new) := by
  cases new <;> rfl

/-- On the way, a node that is not there stops a replacement. -/
theorem replaceWithin_of_child?_eq_none (path : List String) (new : Option RouteTree)
    {tree : RouteTree} {key : String} {rest : List String} (hr : rest ≠ [])
    (h : tree.child? key = none) :
    tree.replaceWithin path new (key :: rest) = .error ⟨key, path⟩ := by
  cases rest with
  | nil => exact absurd rfl hr
  | cons next rest => simp only [replaceWithin, h]

theorem replaceWithin_of_child?_eq_some (path : List String) (new : Option RouteTree)
    {tree child : RouteTree} {key : String} {rest : List String} (hr : rest ≠ [])
    (h : tree.child? key = some child) :
    tree.replaceWithin path new (key :: rest) =
      (child.replaceWithin path new rest).map (tree.withChild key) := by
  cases rest with
  | nil => exact absurd rfl hr
  | cons next rest => simp only [replaceWithin, h]

/-- A replacement below a node changes one child: at the end of the path to what is new, and on the
way to the same child with the rest of the path replaced. -/
theorem replaceWithin_cons_eq_ok {path : List String} {new : Option RouteTree}
    {tree result : RouteTree} {key : String} {rest : List String} :
    tree.replaceWithin path new (key :: rest) = .ok result ↔
      ∃ child?, result = tree.setChild key child? ∧
        (rest = [] ∧ child? = new ∨
          rest ≠ [] ∧ ∃ child child', tree.child? key = some child ∧
            child.replaceWithin path new rest = .ok child' ∧ child? = some child') := by
  constructor
  · intro h
    by_cases hr : rest = []
    · subst hr
      rw [replaceWithin_singleton] at h
      cases h
      exact ⟨new, rfl, Or.inl ⟨rfl, rfl⟩⟩
    · cases hc : tree.child? key with
      | none =>
          rw [replaceWithin_of_child?_eq_none path new hr hc] at h
          cases h
      | some child =>
          rw [replaceWithin_of_child?_eq_some path new hr hc] at h
          cases hw : child.replaceWithin path new rest with
          | error cause =>
              rw [hw] at h
              cases h
          | ok child' =>
              rw [hw] at h
              cases h
              exact ⟨some child', rfl, Or.inr ⟨hr, child, child', rfl, hw, rfl⟩⟩
  · rintro ⟨_, rfl, ⟨rfl, rfl⟩ | ⟨hr, child, child', hc, hw, rfl⟩⟩
    · exact replaceWithin_singleton path _ tree key
    · rw [replaceWithin_of_child?_eq_some path new hr hc, hw]
      rfl

theorem nodeAt?_cons_eq (tree : RouteTree) (key : String) (rest : List String) :
    tree.nodeAt? (key :: rest) = (tree.child? key).bind (·.nodeAt? rest) := by
  rw [nodeAt?]
  cases tree.child? key <;> rfl

theorem nodeAt?_setChild_cons (tree : RouteTree) (key next : String) (new : Option RouteTree)
    (rest : List String) :
    (tree.setChild key new).nodeAt? (next :: rest) =
      if next = key then new.bind (·.nodeAt? rest) else tree.nodeAt? (next :: rest) := by
  rw [nodeAt?_cons_eq, child?_setChild, nodeAt?_cons_eq]
  split <;> rfl

/-! ### Replacements in a row -/

/-- All nodes have their children in the order of their keys. -/
def AllOrdered (tree : RouteTree) : Prop :=
  ∀ keys node, tree.nodeAt? keys = some node → node.Ordered

theorem nodeAt?_cons {tree child : RouteTree} {key : String} (hc : tree.child? key = some child)
    (keys : List String) : tree.nodeAt? (key :: keys) = child.nodeAt? keys := by
  rw [nodeAt?_cons_eq, hc, Option.bind_some]

theorem AllOrdered.ordered {tree : RouteTree} (h : tree.AllOrdered) : tree.Ordered := h [] tree rfl

theorem AllOrdered.child {tree child : RouteTree} {key : String} (h : tree.AllOrdered)
    (hc : tree.child? key = some child) : child.AllOrdered := fun keys node hn =>
  h (key :: keys) node ((nodeAt?_cons hc keys).trans hn)

theorem AllOrdered.setChild {tree : RouteTree} (h : tree.AllOrdered) (key : String)
    {new : Option RouteTree} (hnew : ∀ child ∈ new, child.AllOrdered) :
    (tree.setChild key new).AllOrdered := by
  intro keys node hn
  cases keys with
  | nil =>
      cases hn
      exact h.ordered.setChild key new
  | cons next rest =>
      rw [nodeAt?_setChild_cons] at hn
      split at hn
      · obtain ⟨child, hchild, hn⟩ := Option.bind_eq_some_iff.1 hn
        exact hnew child hchild rest node hn
      · exact h (next :: rest) node hn

@[simp] theorem child?_withChild_self (tree : RouteTree) (key : String) (child : RouteTree) :
    (tree.withChild key child).child? key = some child :=
  child?_setChild_self tree key (some child)

/-- The last of two children at one key counts, whatever the order of the others. -/
@[simp] theorem withChild_withChild (tree : RouteTree) (key : String) (child child' : RouteTree) :
    (tree.withChild key child).withChild key child' = tree.withChild key child' :=
  congrArg (node tree.info) (Keyed.put_put key child child' tree.children)

/-- A replacement on the way to more than one key goes on in a child. -/
theorem replaceWithin_cons_ok {path keys : List String} {new : Option RouteTree}
    {tree live : RouteTree} {key : String} (hk : keys ≠ [])
    (h : tree.replaceWithin path new (key :: keys) = .ok live) :
    ∃ child child', tree.child? key = some child ∧ child.replaceWithin path new keys = .ok child' ∧
      live = tree.withChild key child' := by
  obtain ⟨child?, rfl, ⟨rfl, -⟩ | ⟨-, child, child', hc, hw, rfl⟩⟩ := replaceWithin_cons_eq_ok.1 h
  · exact absurd rfl hk
  · exact ⟨child, child', hc, hw, rfl⟩

/-- What a replacement puts in its place is there afterwards. -/
theorem nodeAt?_replaceWithin {path keys : List String} {new : Option RouteTree}
    {tree live : RouteTree} (hk : keys ≠ []) (h : tree.replaceWithin path new keys = .ok live) :
    live.nodeAt? keys = new := by
  induction keys generalizing tree live with
  | nil => exact absurd rfl hk
  | cons key rest ih =>
      by_cases hr : rest = []
      · subst hr
        rw [replaceWithin_singleton] at h
        cases h
        rw [nodeAt?, child?_setChild_self]
        cases new <;> rfl
      · obtain ⟨child, child', -, hw, rfl⟩ := replaceWithin_cons_ok hr h
        rw [nodeAt?_cons (child?_withChild_self tree key child'), ih hr hw]

/-- Where one node can be put, any other can. -/
theorem exists_replaceWithin {path path' keys : List String} {first : Option RouteTree}
    {tree live : RouteTree} (hk : keys ≠ []) (h : tree.replaceWithin path first keys = .ok live)
    (second : Option RouteTree) : ∃ live', tree.replaceWithin path' second keys = .ok live' := by
  induction keys generalizing tree live with
  | nil => exact absurd rfl hk
  | cons key rest ih =>
      by_cases hr : rest = []
      · subst hr
        exact ⟨_, replaceWithin_singleton path' second tree key⟩
      · obtain ⟨child, child', hc, hw, rfl⟩ := replaceWithin_cons_ok hr h
        obtain ⟨node, hn⟩ := ih hr hw
        refine ⟨tree.withChild key node, ?_⟩
        rw [replaceWithin_of_child?_eq_some path' second hr hc, hn]
        rfl

/-- The second of two replacements in one place counts. -/
theorem replaceWithin_again {path path' keys : List String} {first second : Option RouteTree}
    {tree live : RouteTree} (hk : keys ≠ []) (hordered : tree.AllOrdered)
    (h : tree.replaceWithin path first keys = .ok live) :
    live.replaceWithin path' second keys = tree.replaceWithin path' second keys := by
  induction keys generalizing tree live with
  | nil => exact absurd rfl hk
  | cons key rest ih =>
      by_cases hr : rest = []
      · subst hr
        rw [replaceWithin_singleton] at h
        cases h
        rw [replaceWithin_singleton, replaceWithin_singleton, setChild_setChild hordered.ordered]
      · obtain ⟨child, child', hc, hw, rfl⟩ := replaceWithin_cons_ok hr h
        rw [replaceWithin_of_child?_eq_some path' second hr (child?_withChild_self tree key child'),
          replaceWithin_of_child?_eq_some path' second hr hc, ih hr (hordered.child hc) hw]
        cases child.replaceWithin path' second rest with
        | error cause => rfl
        | ok node => exact congrArg Except.ok (withChild_withChild tree key child' node)

/-- A replacement below the place of another one is a replacement inside what was put there. -/
theorem replaceWithin_below {path path' keys back : List String} {first new : Option RouteTree}
    {tree live live' : RouteTree} (hk : keys ≠ []) (hb : back ≠ [])
    (h : tree.replaceWithin path first keys = .ok live)
    (h' : live.replaceWithin path' new (keys ++ back) = .ok live') :
    ∃ node node', first = some node ∧ node.replaceWithin path' new back = .ok node' ∧
      tree.replaceWithin path (some node') keys = .ok live' := by
  induction keys generalizing tree live live' with
  | nil => exact absurd rfl hk
  | cons key rest ih =>
      obtain ⟨node, node', hnode, hw', rfl⟩ :=
        replaceWithin_cons_ok (List.append_ne_nil_of_right_ne_nil rest hb) h'
      by_cases hr : rest = []
      · subst hr
        rw [replaceWithin_singleton] at h
        cases h
        rw [child?_setChild_self] at hnode
        subst hnode
        refine ⟨node, node', rfl, hw', ?_⟩
        rw [replaceWithin_singleton]
        exact congrArg Except.ok (withChild_withChild tree key node node').symm
      -- Both replacements go on in the same child.
      · obtain ⟨child, child', hc, hw, rfl⟩ := replaceWithin_cons_ok hr h
        rw [child?_withChild_self] at hnode
        cases hnode
        obtain ⟨inner, inner', rfl, hinner, hresult⟩ := ih hr hw hw'
        refine ⟨inner, inner', rfl, hinner, ?_⟩
        rw [replaceWithin_of_child?_eq_some path _ hr hc, hresult]
        exact congrArg Except.ok (withChild_withChild tree key _ node').symm

end RouteTree

end RouteBinder.Route
