import RouteBinder.Proofs.Analysis.HandledVerbs
import RouteBinder.Proofs.Route.KeyPaths

/-!
# RouteBinder.Proofs.Route.Folding

**Laws of folding.** `RouteTree.merge` folds the node of a directory that does not show up into the one
above it, and keeps what is there first. So it does not matter in which order a chain of nodes is folded
(`merge_assoc`), a node that brings nothing changes nothing (`merge_of_nothing`), a node that has nothing
takes over all that is brought (`merge_into_nothing`), and verbs stay distinct (`nodup_verbs_merge`).

What a node carries itself and which children it has are dealt with apart, as in `KeyPaths`: handlers and
imports through `RouteTree.foldInfo`, children through `RouteTree.child?`.
-/

namespace RouteBinder.Route.RouteTree

variable {tree other : RouteTree}

/-! ### What nodes carry -/

/-- No handler is there for the verb. -/
def lacks (handlers : List Handler) (verb : String) : Bool :=
  !(handlers.find? (·.verb == verb)).isSome

theorem handlers_foldInfo (info other : RouteInfo) :
    (foldInfo info other).handlers =
      info.handlers ++ other.handlers.filter fun handler => lacks info.handlers handler.verb :=
  rfl

/-- A verb is missing behind the handlers that are added when it was missing on both sides. -/
theorem lacks_fold (handlers others : List Handler) (verb : String) :
    lacks (handlers ++ others.filter fun other => lacks handlers other.verb) verb =
      (lacks others verb && lacks handlers verb) := by
  simp only [lacks, List.isSome_find?, List.any_append, List.any_filter, Bool.not_or]
  cases hverb : handlers.any fun handler => handler.verb == verb with
  | true => simp
  | false =>
      -- A handler for this verb is not dropped, since the verb is not there.
      have hkept : ∀ other : Handler,
          (!(handlers.any fun handler => handler.verb == other.verb) && other.verb == verb) =
            (other.verb == verb) := by
        intro other
        by_cases hother : other.verb = verb
        · simp [hother, hverb]
        · simp [hother]
      rw [List.any_congr rfl hkept, Bool.not_false, Bool.true_and, Bool.and_true]

theorem foldInfo_assoc (first second third : RouteInfo) :
    foldInfo (foldInfo first second) third = foldInfo first (foldInfo second third) := by
  have hhandlers : (foldInfo (foldInfo first second) third).handlers =
      (foldInfo first (foldInfo second third)).handlers := by
    simp only [handlers_foldInfo, List.filter_append, List.filter_filter, List.append_assoc,
      lacks_fold, Bool.and_comm]
  have himports : (foldInfo (foldInfo first second) third).imports =
      (foldInfo first (foldInfo second third)).imports :=
    List.append_assoc _ _ _
  exact (RouteInfo.mk.injEq ..).mpr ⟨rfl, hhandlers, himports, rfl⟩

/-! ### Nodes -/

/-- Of three nodes, the last two can be folded first. -/
theorem merge_assoc {first second third : RouteTree} (hfirst : first.Ordered)
    (hsecond : second.Ordered) (hthird : third.Ordered) :
    ((first.merge second).value.merge third).value =
      (first.merge (second.merge third).value).value := by
  refine ext_of_child? ((hfirst.merge second).merge third) (hfirst.merge _) ?_ fun key => ?_
  · rw [info_merge, info_merge, info_merge, info_merge, foldInfo_assoc]
  · rw [child?_merge _ hthird, child?_merge _ hsecond, child?_merge _ (hsecond.merge third),
      child?_merge _ hthird, Option.or_assoc]

/-- A node that brings nothing changes nothing. -/
theorem merge_of_nothing (htree : tree.Ordered) (hhandlers : other.handlers = [])
    (hchildren : other.children = []) (himports : other.imports = []) :
    (tree.merge other).value = tree := by
  have hother : other.Ordered := by
    rw [Ordered, hchildren]
    exact Keyed.Sorted.nil
  refine ext_of_child? (htree.merge other) htree ?_ fun key => ?_
  · rw [info_merge, foldInfo, ← handlers, ← imports, ← handlers, ← imports, hhandlers, himports,
      List.filter_nil, List.append_nil, List.append_nil]
    rfl
  · have hnone : other.child? key = none := by
      rw [child?, hchildren, List.lookup_nil]
    rw [child?_merge _ hother, hnone, Option.or_none]

/-- A node that has nothing takes over all that is brought. -/
theorem merge_into_nothing (hother : other.Ordered) (hhandlers : tree.handlers = [])
    (hchildren : tree.children = []) (himports : tree.imports = []) :
    (tree.merge other).value =
      .node { tree.info with handlers := other.handlers, imports := other.imports }
        other.children := by
  have htree : tree.Ordered := by
    rw [Ordered, hchildren]
    exact Keyed.Sorted.nil
  refine ext_of_child? (htree.merge other) hother ?_ fun key => ?_
  · rw [info_merge, foldInfo, ← handlers, ← imports, ← handlers, ← imports, hhandlers, himports]
    simp [info]
  · have hnone : tree.child? key = none := by
      rw [child?, hchildren, List.lookup_nil]
    rw [child?_merge _ hother, hnone, Option.none_or]
    rfl

/-- Verbs that are distinct on both sides stay distinct. -/
theorem nodup_verbs_merge (htree : (tree.handlers.map (·.verb)).Nodup)
    (hother : (other.handlers.map (·.verb)).Nodup) :
    ((tree.merge other).value.handlers.map (·.verb)).Nodup := by
  rw [handlers, info_merge]
  exact nodup_verbs_append htree hother

end RouteBinder.Route.RouteTree
