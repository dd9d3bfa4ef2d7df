import Mathlib.Data.Set.Function
import RouteBinder.Proofs.Project.Runs
import RouteBinder.Proofs.Project.Targets

/-!
# RouteBinder.Proofs.Project.IncrementalUpdate

**An incremental update equals a full build.** An `Update` is a change of a route file together with the
files before and after it, which differ below the target of the change and nowhere else. Taking over
the change turns the tree of a full build before into the tree of a full build after.

There is one place that an update does not look at: the path of the target itself, where a file may
stand that is the route file of the directory above. Its appearance is a change of its own, and an
update for something below that path leaves it out.
-/

namespace RouteBinder.Project

open FileSystem Route Analysis Body

namespace Coordinator

section

variable [Host] [Recovery] {config : Config} {text : String} {change : Change} {place : List String}
  {before after : FileTree}

/-- The files before and after a change of a route file whose target is the place. -/
structure Update (config : Config) (text : String) (change : Change) (place : List String)
    (before after : FileTree) : Prop where
  /-- The directory of the routes is given by its resolved path. -/
  resolved : config.appDir.resolve = config.appDir
  isRouteFile : RouteFiles.isRouteFile (.ofString text) config.appDir config.routeFile = true
  located : (locate? config (.ofString text)).map (·.directory) =
    some (config.appDir.descend place)
  wellFormedBefore : before.wellFormed = true
  wellFormedAfter : after.wellFormed = true
  agree : FileTree.AgreeOutside (config.appDir.parts ++ place) before after
  ancestorsBefore : AncestorsThere config before place
  ancestorsAfter : AncestorsThere config after place
  /-- No two directories that show up have the same keys. -/
  distinct : Set.InjOn Segment.keys {other | Build.Shows (routesIn config before) other ∨
    Build.Shows (routesIn config after) other ∨ other = place}
  analyzable : Build.Analyzable config.routeFile config.appDir (routesIn config after)
  /-- Unless the target is there, the file has been deleted. -/
  deleted : after.isDirectoryAt (config.appDir.descend place) = false → change = .deleted

theorem Update.locate?_eq (h : Update config text change place before after) :
    IsTarget place ∧
      locate? config (.ofString text) = some ⟨config.appDir.descend place, Segment.keys place⟩ := by
  obtain ⟨target, htarget, hdirectory⟩ := Option.map_eq_some_iff.1 h.located
  obtain ⟨other, hother, rfl⟩ := locate?_eq_some h.isRouteFile htarget
  have hparts := congrArg Path.parts hdirectory
  rw [h.resolved] at hparts
  obtain rfl := List.append_cancel_left hparts
  rw [h.resolved] at htarget
  exact ⟨hother, htarget⟩

/-- The tree after an update is the tree of a full build. -/
theorem Update.updated_eq_fullBuild (h : Update config text change place before after)
    (hbefore : NoRouteFileAt config before place) (hafter : NoRouteFileAt config after place)
    {old : RouteTree} (hold : FullBuild config before old) :
    ∃ fresh notices, FullBuild config after fresh ∧
      updated config after (some old) change (.ofString text) = .ok ⟨fresh, notices⟩ := by
  obtain ⟨hplace, hloc⟩ := h.locate?_eq
  obtain ⟨fresh, hfresh⟩ := exists_fullBuild h.resolved h.wellFormedAfter h.analyzable
  by_cases hne : place = []
  -- A change at the root leads to a full build in any case.
  · subst hne
    rw [Path.descend_nil] at hloc
    obtain ⟨notices, hupdated⟩ := updated_of_root h.resolved hloc hfresh old
    exact ⟨fresh, notices, hfresh, hupdated⟩
  · obtain ⟨new, hnew⟩ := exists_nodeAt hplace h.wellFormedAfter h.analyzable
    have hisolatesBefore : Isolates config before place :=
      isolates_of_injOn h.resolved hplace h.wellFormedBefore h.ancestorsBefore hbefore
        (Or.inr (Or.inr rfl)) (fun other ho => Or.inl ho) h.distinct
    have hisolatesAfter : Isolates config after place :=
      isolates_of_injOn h.resolved hplace h.wellFormedAfter h.ancestorsAfter hafter
        (Or.inr (Or.inr rfl)) (fun other ho => Or.inr (Or.inl ho)) h.distinct
    -- Both trees isolate the place, so replacing its node leads from one build to the other.
    have hreplace := FullBuild.replaceAt h.resolved hplace hne hold hfresh h.agree hisolatesBefore
      hisolatesAfter hnew
    have hdeleted : new = none → change = .deleted := by
      rintro rfl
      refine h.deleted ?_
      rw [← Bool.not_eq_true, isDirectoryAt_routesIn h.resolved hplace.noDots hne]
      exact not_exists.2 hnew
    obtain ⟨notices, hupdated⟩ :=
      updated_of_place h.resolved hplace hne hloc hnew hdeleted old
    exact ⟨fresh, notices, hfresh, hupdated.trans (placed_of_ok hreplace)⟩

/-- Taking over a change gives the tree of a full build, unless the path of the target is that of a
route file. Whether the files are written does not matter. -/
theorem handleEvent_eq_fullBuild (run : Formatter.Runner)
    (h : Update config text change place before after)
    (hbefore : NoRouteFileAt config before place) (hafter : NoRouteFileAt config after place)
    {old : RouteTree} (hold : FullBuild config before old) (version : Nat)
    (reported : List Notice) (refused : Generation.Refusals) :
    ∃ fresh result workspace, FullBuild config after fresh ∧
      runOn (handleEvent run config change (.ofString text) refused) ⟨some old, version⟩
          ⟨after, reported⟩ =
        ((result, ⟨some fresh, version + 1⟩), workspace) ∧
      (Formatter.WritesText run → result = .ok true) := by
  obtain ⟨fresh, notices, hfresh, hupdated⟩ := h.updated_eq_fullBuild hbefore hafter hold
  obtain ⟨result, workspace, hrun, hresult, -⟩ := runOn_handleEvent run
    ⟨some old, version⟩ ⟨after, reported⟩ h.isRouteFile hupdated refused
  exact ⟨fresh, result, workspace, hfresh, hrun, hresult⟩

end

/-! ### Two updates -/

/-- Both states of the files have at most one directory of routes. -/
theorem injOn_of_single {name : String} {entry entry' : FileTree}
    (hfiles : ∀ e ∈ entry.entries, e.2.isFile = true)
    (hfiles' : ∀ e ∈ entry'.entries, e.2.isFile = true) :
    Set.InjOn Segment.keys {other |
      Build.Shows (routesIn smallConfig (smallFiles [(name, entry)])) other ∨
        Build.Shows (routesIn smallConfig (smallFiles [(name, entry')])) other ∨
          other = [name]} := by
  have hsingle : Set.InjOn Segment.keys {[name]} := Set.subsingleton_singleton.injOn _
  refine hsingle.mono fun other hother => ?_
  rcases hother with h | h | h
  · exact eq_of_shows h hfiles
  · exact eq_of_shows h hfiles'
  · exact h

theorem agreeOutside_small (name : String) (entry entry' : FileTree) :
    FileTree.AgreeOutside (smallConfig.appDir.parts ++ [name]) (smallFiles [(name, entry)])
      (smallFiles [(name, entry')]) := by
  refine And.intro rfl (And.intro rfl (And.intro rfl (And.intro rfl (And.intro ?_ trivial))))
  simp [Keyed.remove]

attribute [local instance] Host.solitary Recovery.verbatim

set_option maxRecDepth 100000 in
theorem exists_builds_small : ∃ node, Build.Builds "route.ts" smallConfig.appDir
    (.directory [("users", .directory [("route.ts", smallRoute)])]) node :=
  exists_builds_of_isOk (by decide +kernel)

set_option maxRecDepth 100000 in
theorem exists_builds_replaced : ∃ node, Build.Builds "route.ts" smallConfig.appDir
    (.directory [("route.ts", smallRoute)]) node :=
  exists_builds_of_isOk (by decide +kernel)

/-- A route file is added to a directory. -/
theorem update_added : Update smallConfig "/work/routes/project/app/users/route.ts" .added ["users"]
    (smallFiles [("users", .directory [])])
    (smallFiles [("users", .directory [("route.ts", smallRoute)])]) where
  resolved := by decide
  isRouteFile := by decide
  located := by decide
  wellFormedBefore := by decide
  wellFormedAfter := by decide
  agree := agreeOutside_small _ _ _
  ancestorsBefore := ancestorsThere_singleton _ _
  ancestorsAfter := ancestorsThere_singleton _ _
  distinct := injOn_of_single (by decide) (by decide)
  analyzable := by
    obtain ⟨node, hn⟩ := exists_builds_small
    exact hn.analyzable
  deleted := by decide

/-- In the same way, the tree of the project with no routes becomes the tree with the new ones. -/
theorem handleEvent_eq_fullBuild_added : ∃ old fresh result workspace,
    FullBuild smallConfig (smallFiles [("users", .directory [])]) old ∧
    FullBuild smallConfig (smallFiles [("users", .directory [("route.ts", smallRoute)])]) fresh ∧
    runOn (handleEvent (fun _ _ _ => .notStarted) smallConfig .added
        (.ofString "/work/routes/project/app/users/route.ts")) ⟨some old, 1⟩
        ⟨smallFiles [("users", .directory [("route.ts", smallRoute)])], []⟩ =
      ((result, ⟨some fresh, 2⟩), workspace) ∧
    result = .ok true := by
  have hrun : Formatter.WritesText fun _ _ _ => .notStarted := fun _ _ _ _ h => by cases h
  have hold : FullBuild smallConfig (smallFiles [("users", .directory [])]) _ := ⟨[], rfl⟩
  obtain ⟨fresh, result, workspace, hfresh, heq, hresult⟩ := handleEvent_eq_fullBuild
    (fun _ _ _ => .notStarted) update_added (by unfold NoRouteFileAt; decide)
    (by unfold NoRouteFileAt; decide) hold 1 [] Generation.noRefusals
  exact ⟨_, fresh, result, workspace, hold, hfresh, heq, hresult hrun⟩

/-- A directory with the name of a route file gives way to a route file. -/
theorem update_replaced : Update smallConfig "/work/routes/project/app/route.ts/route.ts" .deleted
    ["route.ts"] (smallFiles [("route.ts", .directory [("route.ts", smallRoute)])])
    (smallFiles [("route.ts", smallRoute)]) where
  resolved := by decide
  isRouteFile := by decide
  located := by decide
  wellFormedBefore := by decide
  wellFormedAfter := by decide
  agree := agreeOutside_small _ _ _
  ancestorsBefore := ancestorsThere_singleton _ _
  ancestorsAfter := ancestorsThere_singleton _ _
  distinct := injOn_of_single (by decide) (by decide)
  analyzable := by
    obtain ⟨node, hn⟩ := exists_builds_replaced
    exact hn.analyzable
  deleted := fun _ => rfl

set_option maxRecDepth 100000 in
/-- An update below a directory does not see the route file that takes its place: the new version of
the live tree lacks the handler of that file. -/
theorem handleEvent_ne_fullBuild : ∃ old fresh,
    FullBuild smallConfig (smallFiles [("route.ts", .directory [("route.ts", smallRoute)])]) old ∧
    FullBuild smallConfig (smallFiles [("route.ts", smallRoute)]) fresh ∧
    Update smallConfig "/work/routes/project/app/route.ts/route.ts" .deleted ["route.ts"]
      (smallFiles [("route.ts", .directory [("route.ts", smallRoute)])])
      (smallFiles [("route.ts", smallRoute)]) ∧
    (runOn (handleEvent (fun _ _ _ => .notStarted) smallConfig .deleted
        (.ofString "/work/routes/project/app/route.ts/route.ts")) ⟨some old, 1⟩
        ⟨smallFiles [("route.ts", smallRoute)], []⟩).1.1.toOption = some true ∧
    (runOn (handleEvent (fun _ _ _ => .notStarted) smallConfig .deleted
        (.ofString "/work/routes/project/app/route.ts/route.ts")) ⟨some old, 1⟩
        ⟨smallFiles [("route.ts", smallRoute)], []⟩).1.2.tree ≠ some fresh := by
  have hcheck : ((Build.routeTree (smallFiles [("route.ts", .directory [("route.ts", smallRoute)])])
      smallConfig.appDir "route.ts").toOption.bind fun old =>
      (Build.routeTree (smallFiles [("route.ts", smallRoute)]) smallConfig.appDir
        "route.ts").toOption.map fun fresh =>
        let outcome := (runOn (handleEvent (fun _ _ _ => .notStarted) smallConfig .deleted
          (.ofString "/work/routes/project/app/route.ts/route.ts")) ⟨some old.value, 1⟩
          ⟨smallFiles [("route.ts", smallRoute)], []⟩).1
        decide (outcome.1.toOption = some true ∧ outcome.2.tree ≠ some fresh.value)) =
      some true := by decide +kernel
  cases hold : Build.routeTree (smallFiles [("route.ts", .directory [("route.ts", smallRoute)])])
      smallConfig.appDir "route.ts" with
  | error cause =>
      rw [hold] at hcheck
      cases hcheck
  | ok old =>
      cases hfresh : Build.routeTree (smallFiles [("route.ts", smallRoute)]) smallConfig.appDir
          "route.ts" with
      | error cause =>
          rw [hold, hfresh] at hcheck
          cases hcheck
      | ok fresh =>
          rw [hold, hfresh] at hcheck
          have hdiffers := of_decide_eq_true (Option.some.inj hcheck)
          exact ⟨old.value, fresh.value, ⟨old.notices, hold⟩, ⟨fresh.notices, hfresh⟩,
            update_replaced, hdiffers.1, hdiffers.2⟩

end Coordinator

end RouteBinder.Project
