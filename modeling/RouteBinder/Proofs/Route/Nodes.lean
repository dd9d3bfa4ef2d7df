import RouteBinder.Proofs.Route.KeyPaths

/-!
# RouteBinder.Proofs.Route.Nodes

**All nodes of a route tree.** `RouteTree.nodes` lists the nodes with the keys that lead to them, and
`RouteTree.routes` what they implement. In a tree with its children in order, the keys of a node lead to
it (`RouteTree.nodeAt?_of_mem_nodes`). Folding and adding children neither lose nor invent a route as
long as nothing is reported (`RouteTree.perm_routesFrom_merge`, `RouteTree.perm_routesFrom_addChild`).
-/

namespace RouteBinder.Route

namespace RouteTree

/-! ### Listing nodes -/

mutual
/-- The nodes of a tree, each before the nodes below it, with the keys that lead to them behind some
first keys. -/
def nodesFrom (keys : List String) : RouteTree → List (List String × RouteTree)
  | .node info children => (keys, .node info children) :: nodesOfChildren keys children

def nodesOfChildren (keys : List String) :
    List (String × RouteTree) → List (List String × RouteTree)
  | [] => []
  | (key, child) :: rest => nodesFrom (keys ++ [key]) child ++ nodesOfChildren keys rest
end

/-- The nodes of a tree with the keys that lead to them from its root. -/
def nodes (tree : RouteTree) : List (List String × RouteTree) := nodesFrom [] tree

theorem nodesOfChildren_eq_flatMap (keys : List String) (children : List (String × RouteTree)) :
    nodesOfChildren keys children = children.flatMap fun e => nodesFrom (keys ++ [e.1]) e.2 := by
  induction children with
  | nil => rfl
  | cons entry rest ih =>
      obtain ⟨key, child⟩ := entry
      rw [nodesOfChildren, List.flatMap_cons, ih]

theorem nodesFrom_eq (keys : List String) (tree : RouteTree) :
    nodesFrom keys tree =
      (keys, tree) :: tree.children.flatMap fun e => nodesFrom (keys ++ [e.1]) e.2 := by
  cases tree with
  | node info children => rw [nodesFrom, nodesOfChildren_eq_flatMap, RouteTree.children]

theorem mem_nodes_self (tree : RouteTree) : ([], tree) ∈ tree.nodes := by
  rw [nodes, nodesFrom_eq]
  exact List.mem_cons_self

/-- The keys that a node is listed with lead to it. -/
theorem nodeAt?_of_mem_nodesFrom : ∀ {tree found : RouteTree} {keys path : List String},
    tree.AllOrdered → (path, found) ∈ nodesFrom keys tree →
    ∃ below, path = keys ++ below ∧ tree.nodeAt? below = some found
  | .node info children, found, keys, path, hordered, h => by
      rw [nodesFrom_eq] at h
      rcases List.mem_cons.1 h with heq | h
      · cases heq
        exact ⟨[], (List.append_nil keys).symm, rfl⟩
      · obtain ⟨⟨key, child⟩, hmem, h⟩ := List.mem_flatMap.1 h
        have hc : (RouteTree.node info children).child? key = some child :=
          hordered.ordered.lookup_of_mem hmem
        obtain ⟨below, rfl, hat⟩ := nodeAt?_of_mem_nodesFrom (hordered.child hc) h
        exact ⟨key :: below, by simp, (nodeAt?_cons hc below).trans hat⟩
termination_by tree => sizeOf tree
decreasing_by
  have := List.sizeOf_lt_of_mem hmem
  simp [RouteTree.children] at this ⊢
  omega

theorem nodeAt?_of_mem_nodes {tree node : RouteTree} {keys : List String}
    (hordered : tree.AllOrdered) (h : (keys, node) ∈ tree.nodes) :
    tree.nodeAt? keys = some node := by
  obtain ⟨below, rfl, hat⟩ := nodeAt?_of_mem_nodesFrom hordered h
  exact hat

theorem nodeAt?_append (tree : RouteTree) (front back : List String) :
    tree.nodeAt? (front ++ back) = (tree.nodeAt? front).bind (·.nodeAt? back) := by
  induction front generalizing tree with
  | nil => rfl
  | cons key rest ih =>
      rw [List.cons_append, nodeAt?, nodeAt?]
      cases tree.child? key with
      | none => rfl
      | some child => exact ih child

/-! ### What is implemented -/

/-- The handlers of all nodes, with the keys that lead to the nodes behind some first keys. -/
def routesFrom (keys : List String) (tree : RouteTree) : List (List String × Handler) :=
  (nodesFrom keys tree).flatMap fun e => e.2.handlers.map (e.1, ·)

/-- The handlers of all nodes with the keys that lead to the nodes. -/
def routes (tree : RouteTree) : List (List String × Handler) := routesFrom [] tree

theorem routesFrom_eq (keys : List String) (tree : RouteTree) :
    routesFrom keys tree = tree.handlers.map (keys, ·) ++
      tree.children.flatMap fun e => routesFrom (keys ++ [e.1]) e.2 := by
  simp only [routesFrom, nodesFrom_eq keys tree, List.flatMap_cons, List.flatMap_assoc]

/-- A new child brings its routes. -/
theorem perm_routesFrom_addChild (keys : List String) {tree child : RouteTree} {key : String}
    (h : (tree.addChild key child).notices = []) :
    (routesFrom keys (tree.addChild key child).value).Perm
      (routesFrom keys tree ++ routesFrom (keys ++ [key]) child) := by
  rw [addChild] at h ⊢
  cases hc : tree.child? key with
  | some other =>
      rw [hc] at h
      cases h
  | none =>
      dsimp only
      have hput : (tree.withChild key child).children.Perm ((key, child) :: tree.children) :=
        Keyed.perm_put hc child
      rw [routesFrom_eq keys (tree.withChild key child), routesFrom_eq keys tree, List.append_assoc]
      refine List.Perm.append_left _ ((hput.flatMap_right _).trans ?_)
      rw [List.flatMap_cons]
      exact List.perm_append_comm

/-- A handler whose verb is taken is reported, so all handlers are taken over without notices. -/
theorem mergeHandlers_of_quiet {tree other : RouteTree}
    (h : (mergeHandlers tree other).notices = []) :
    (mergeHandlers tree other).value = tree.handlers ++ other.handlers := by
  rw [mergeHandlers, List.partition_eq_filter_filter] at h ⊢
  have hknown := List.filter_eq_nil_iff.1 (List.map_eq_nil_iff.1 h)
  have hall : (other.handlers.filter fun handler => !(tree.handler? handler.verb).isSome) =
      other.handlers :=
    List.filter_eq_self.2 fun handler hmem => by simpa using hknown handler hmem
  exact congrArg (tree.handlers ++ ·) hall

/-- A child whose key is taken is reported, so all keys are free without notices. -/
theorem child?_of_mergeChildren_quiet {tree other : RouteTree}
    (h : (mergeChildren tree other).notices = []) {e : String × RouteTree}
    (hmem : e ∈ other.children) : tree.child? e.1 = none := by
  rw [mergeChildren, List.partition_eq_filter_filter] at h
  have hknown := List.filter_eq_nil_iff.1 (List.map_eq_nil_iff.1 h) e hmem
  rwa [Bool.not_eq_true, Option.isSome_eq_false_iff, Option.isNone_iff_eq_none] at hknown

/-- Children whose keys are all free are all taken over. -/
theorem perm_children_merge {tree other : RouteTree} (ho : other.Ordered)
    (hfree : ∀ e ∈ other.children, tree.child? e.1 = none) :
    (merge tree other).value.children.Perm (tree.children ++ other.children) := by
  have hall : (other.children.filter fun e => !(tree.child? e.1).isSome) = other.children :=
    List.filter_eq_self.2 fun e hmem => by simp [hfree e hmem]
  rw [children_merge, hall]
  exact Keyed.perm_foldl_put ho hfree

/-- A folded node brings its routes. -/
theorem perm_routesFrom_merge (keys : List String) {tree other : RouteTree} (ho : other.Ordered)
    (h : (tree.merge other).notices = []) :
    (routesFrom keys (tree.merge other).value).Perm
      (routesFrom keys tree ++ routesFrom keys other) := by
  have hquiet : (mergeHandlers tree other).notices = [] ∧ (mergeChildren tree other).notices = [] := by
    have hn : (mergeHandlers tree other).notices ++ ((mergeChildren tree other).notices ++ []) = [] :=
      h
    simpa using hn
  have hhandlers : (merge tree other).value.handlers = tree.handlers ++ other.handlers :=
    mergeHandlers_of_quiet hquiet.1
  have hchildren := perm_children_merge ho fun e => child?_of_mergeChildren_quiet hquiet.2
  rw [routesFrom_eq, hhandlers, routesFrom_eq keys tree, routesFrom_eq keys other, List.map_append]
  refine (List.Perm.append_left _ (hchildren.flatMap_right _)).trans ?_
  rw [List.flatMap_append, List.append_assoc, List.append_assoc]
  refine List.Perm.append_left _ ?_
  rw [← List.append_assoc, ← List.append_assoc]
  exact List.perm_append_comm.append_right _

end RouteTree

end RouteBinder.Route
