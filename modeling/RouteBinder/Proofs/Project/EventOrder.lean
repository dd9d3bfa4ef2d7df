import Mathlib.Data.Set.Function
import RouteBinder.Proofs.FileSystem.Writes
import RouteBinder.Proofs.Project.Batches
import RouteBinder.Proofs.Project.BuiltNodes
import RouteBinder.Proofs.Project.IncrementalUpdate
import RouteBinder.Proofs.Route.Refresh

/-!
# RouteBinder.Proofs.Project.EventOrder

**The order of changes does not matter.** While the files stay as they are, every change of a route file
takes its node over from one and the same tree, the full build of the files: an existing directory has
the node there that a build of the directory gives, and a directory that is gone has none
(`Coordinator.Settled.nodeAt?_eq`). So a change is a `RouteTree.refresh` of the live tree, also when it is
dropped because the way to its place is missing (`Coordinator.Settled.tree_handleEvent`), and refreshes
can be made in any order.

The files do stay as they are, because both files are written beside the directory of the routes
(`Generation.Written.entriesAt_appDir`).
-/

namespace RouteBinder.Project

open FileSystem Route Analysis Body

/-! ### Files that stay -/

/-- Neither file is written below the directory of the routes, and no directory is made there on the
way to one of them. -/
def Config.WritesBeside [Host] (config : Config) (files : FileTree) : Prop :=
  ∀ destination, destination = config.clientPath ∨ destination = config.serverPath →
    ¬ config.appDir.parts <+: destination.parent.resolve.parts ∧
      FileTree.EntersOnly (files.entriesAt config.appDir.parts) config.appDir.parts
        destination.parent.way

/-- Files that are written outside of the directory of the routes, by their resolved paths, are written
beside it. -/
theorem Config.WritesOutside.writesBeside [Host] {config : Config} (h : config.WritesOutside)
    (files : FileTree) : config.WritesBeside files := by
  intro destination hdestination
  obtain ⟨hresolved, houtside⟩ := h destination hdestination
  have habs : destination.parent.isAbsolute = true := by
    change destination.isAbsolute = true
    rw [← hresolved]
    exact Path.isAbsolute_resolve _
  have hdots : ".." ∉ destination.parent.parts := fun hn => by
    have hmem := List.dropLast_subset _ hn
    rw [← hresolved] at hmem
    exact Path.dots_not_mem_resolve _ hmem
  have hway : destination.parent.way = destination.parent.parts := by
    rw [Path.way, Path.join, if_pos habs]
  refine ⟨by rwa [Path.resolve_eq_self habs hdots], fun front back hfront heq _ => ?_⟩
  rw [hway] at hfront
  have hself : Path.placeOf front = front := by
    rw [Path.placeOf, Path.foldl_walkBack_of_not_mem fun hn => hdots (hfront.subset hn),
      List.append_nil, List.reverse_reverse]
  rw [hself] at heq
  subst heq
  exact absurd ((List.prefix_append _ _).trans hfront) houtside

/-- Writing both files leaves everything in the directory of the routes as it is. -/
theorem Generation.Written.entriesAt_appDir [Host] {config : Config} {before after : FileTree}
    (h : Generation.Written config before after)
    (hentries : (FileTree.directory (before.entriesAt config.appDir.parts)).wellFormed = true)
    (hbeside : config.WritesBeside before) :
    after.entriesAt config.appDir.parts = before.entriesAt config.appDir.parts := by
  induction h with
  | refl => rfl
  | tail hsteps hstep ih =>
      obtain ⟨destination, content, faults, hdestination, rfl⟩ := hstep
      obtain ⟨hout, henters⟩ := hbeside destination hdestination
      rw [← ih] at hentries henters ⊢
      exact AtomicWrite.entriesAt_write _ content hentries hout henters

namespace Build

/-- A build only looks at entries, so a file in the place of a directory counts as an empty one. -/
theorem builds_entries [Recovery] {routeFile : String} {directory : Path} {tree : FileTree}
    {node : RouteTree} :
    Builds routeFile directory (.directory tree.entries) node ↔
      Builds routeFile directory tree node := by
  cases tree with
  | directory entries => rfl
  | file content =>
      rw [builds_file, builds_directory]
      constructor
      · intro h
        obtain ⟨analysis, ha, h⟩ := h
        cases ha
        exact attaches_nil.1 h
      · intro h
        exact ⟨⟨{}, []⟩, rfl, attaches_nil.2 h⟩

end Build

namespace Coordinator

variable {config : Config} {files files' : FileTree}

theorem entries_routesIn (config : Config) (files : FileTree) :
    (routesIn config files).entries = files.entriesAt config.appDir.parts := by
  rw [routesIn, FileTree.entriesAt]
  cases files.at? config.appDir.parts <;> rfl

section

variable [Host]

/-- Files with the same entries in the directory of the routes have the same full build. -/
theorem FullBuild.of_entriesAt [Recovery] (hresolved : config.appDir.resolve = config.appDir)
    {tree : RouteTree} (h : FullBuild config files tree)
    (hsame : files'.entriesAt config.appDir.parts = files.entriesAt config.appDir.parts) :
    FullBuild config files' tree := by
  rw [fullBuild_iff hresolved, ← Build.builds_entries, entries_routesIn] at h ⊢
  rwa [hsame]

omit [Host] in
theorem nodeAt_of_entriesAt [Recovery] {place : List String} {new : Option RouteTree} (hne : place ≠ [])
    (h : NodeAt config files place new)
    (hsame : files'.entriesAt config.appDir.parts = files.entriesAt config.appDir.parts) :
    NodeAt config files' place new := by
  have hat : (routesIn config files').at? place = (routesIn config files).at? place := by
    rw [← at?_routesIn files' hne, ← at?_routesIn files hne, FileTree.at?_append_of_ne_nil hne,
      FileTree.at?_append_of_ne_nil hne, hsame]
  cases new with
  | none =>
      intro entries
      rw [hat]
      exact h entries
  | some node =>
      obtain ⟨entries, hentries, hb⟩ := h
      exact ⟨entries, hat.trans hentries, hb⟩

/-! ### Changes of settled files -/

/-- Files that stay as they are while the changes are taken over. -/
structure Settled [Recovery] (config : Config) (files : FileTree)
    (changes : List (Change × String)) : Prop where
  /-- The directory of the routes is given by its resolved path. -/
  resolved : config.appDir.resolve = config.appDir
  wellFormed : files.wellFormed = true
  beside : config.WritesBeside files
  analyzable : Build.Analyzable config.routeFile config.appDir (routesIn config files)
  isRouteFile : ∀ change ∈ changes,
    RouteFiles.isRouteFile (.ofString change.2) config.appDir config.routeFile = true
  /-- What has been added or modified is there. -/
  isFileAt : ∀ change ∈ changes, change.1 ≠ .deleted →
    files.isFileAt (.ofString change.2) = true
  /-- No two directories, of those that show up and those that the changes lead to, have the same
  keys. -/
  distinct : Set.InjOn Segment.keys {place | Build.Shows (routesIn config files) place ∨
    ∃ change ∈ changes, (locate? config (.ofString change.2)).map (·.directory) =
      some (config.appDir.descend place)}

variable {changes : List (Change × String)} {change : Change × String} {fresh : RouteTree}

/-- The target of a change is above the file. -/
theorem prefix_of_locate? (hresolved : config.appDir.resolve = config.appDir) {file : Path}
    {target : UpdateTarget} {place : List String} (h : locate? config file = some target)
    (htarget : target.directory = config.appDir.descend place) :
    config.appDir.parts ++ place <+: file.resolve.parts.dropLast := by
  rw [locate?, Option.map_eq_some_iff] at h
  obtain ⟨names, hnames, rfl⟩ := h
  have hparts : file.resolve.parts.dropLast = config.appDir.parts ++ names :=
    hresolved ▸ (Path.below?_eq_some hnames).2
  have hplace := congrArg Path.parts htarget
  dsimp only at hplace
  rw [hresolved] at hplace
  obtain rfl := List.append_cancel_left hplace
  rw [hparts, List.prefix_append_right_inj, retained_eq]
  exact List.rdropWhile_prefix _ names

/-- Where a route file has been added or modified, its target is there. -/
theorem Settled.exists_directory [Recovery] (h : Settled config files changes) (hc : change ∈ changes)
    (hdeleted : change.1 ≠ .deleted) {target : UpdateTarget} {place : List String}
    (hloc : locate? config (.ofString change.2) = some target)
    (htarget : target.directory = config.appDir.descend place) (hne : place ≠ []) :
    ∃ entries, (routesIn config files).at? place = some (.directory entries) := by
  have hfile := h.isFileAt change hc hdeleted
  rw [FileTree.isFileAt, Option.any_eq_true] at hfile
  obtain ⟨entry, hfind, -⟩ := hfile
  have hat := FileTree.at?_resolve_of_find? hfind
  have hprefix := prefix_of_locate? h.resolved hloc htarget
  have hparts : (Path.ofString change.2).resolve.parts ≠ [] := by
    intro hnil
    rw [hnil, List.dropLast_nil, List.prefix_nil] at hprefix
    exact hne (List.append_eq_nil_iff.1 hprefix).2
  rw [← List.dropLast_append_getLast hparts] at hat
  obtain ⟨above, habove⟩ := FileTree.exists_directory_of_append (List.cons_ne_nil _ _) hat
  rw [← at?_routesIn files hne]
  exact FileTree.at?_of_prefix habove hprefix

/-- The full build has in the place of a target what a build makes of the target. -/
theorem Settled.nodeAt?_eq [Recovery] (h : Settled config files changes)
    (hfresh : FullBuild config files fresh)
    {place : List String} (hplace : IsTarget place) (hne : place ≠ [])
    (hmem : ∃ change ∈ changes, (locate? config (.ofString change.2)).map (·.directory) =
      some (config.appDir.descend place))
    {new : Option RouteTree} (hnew : NodeAt config files place new) :
    fresh.nodeAt? (Segment.keys place) = new := by
  have hkeys := Segment.keys_ne_nil hplace.noEmpty (hplace.endsShown hne)
  cases new with
  | some node =>
      obtain ⟨entries, hat, -⟩ := id hnew
      rw [← at?_routesIn files hne] at hat
      have hisolates := isolates_of_directory h.resolved hplace hne h.wellFormed hat
        (h.distinct.mono fun other ho => Or.inl ho)
      exact RouteTree.nodeAt?_replaceWithin hkeys (FullBuild.replaceAt h.resolved hplace hne hfresh
        hfresh (FileTree.AgreeOutside.refl _ _) hisolates hisolates hnew)
  | none =>
      cases hat : fresh.nodeAt? (Segment.keys place) with
      | none => rfl
      -- Another directory would have the keys of the target.
      | some node =>
          obtain ⟨other, ⟨hshows, -⟩, hsame⟩ :=
            ((fullBuild_iff h.resolved).1 hfresh).exists_showsNode_of_nodeAt?
              (wellFormed_routesIn h.wellFormed) hkeys hat
          obtain rfl := h.distinct (Or.inl hshows) (Or.inr hmem) hsame
          obtain ⟨-, -, entries, hentries⟩ := hshows
          exact absurd hentries (hnew entries)

/-- The tree in which the change has taken its node over from the fresh tree. -/
def takenOver (config : Config) (fresh : RouteTree) (change : Change × String)
    (tree : Option RouteTree) : Option RouteTree :=
  match locate? config (.ofString change.2) with
  | some target => RouteTree.refresh (some fresh) target.keys tree
  | none => tree

theorem allOrdered_takenOver (hfresh : fresh.AllOrdered) {tree : Option RouteTree}
    (htree : ∀ node ∈ tree, node.AllOrdered) (change : Change × String) :
    ∀ node ∈ takenOver config fresh change tree, node.AllOrdered := by
  delta takenOver
  split
  · refine RouteTree.allOrdered_refresh (fun node hn => ?_) htree _
    obtain rfl := Option.some.inj hn
    exact hfresh
  · exact htree

theorem exists_takenOver (fresh : RouteTree) (change : Change × String) (tree : RouteTree) :
    ∃ tree', takenOver config fresh change (some tree) = some tree' := by
  delta takenOver
  split
  · rename_i target _
    cases target.keys with
    | nil => exact ⟨fresh, rfl⟩
    | cons key rest => exact ⟨_, rfl⟩
  · exact ⟨tree, rfl⟩

theorem takenOver_comm (hfresh : fresh.AllOrdered) {tree : Option RouteTree}
    (htree : ∀ node ∈ tree, node.AllOrdered) (first second : Change × String) :
    takenOver config fresh second (takenOver config fresh first tree) =
      takenOver config fresh first (takenOver config fresh second tree) := by
  have hnode : ∀ node ∈ some fresh, node.AllOrdered := fun node hn => by
    obtain rfl := Option.some.inj hn
    exact hfresh
  delta takenOver
  cases locate? config (.ofString first.2) with
  | none => rfl
  | some target =>
      cases locate? config (.ofString second.2) with
      | none => rfl
      | some target' => exact RouteTree.refresh_comm hnode htree target.keys target'.keys

/-- Changes can be taken over in any order. -/
theorem foldl_takenOver_perm (hfresh : fresh.AllOrdered) {changes' : List (Change × String)}
    (hperm : changes.Perm changes') {tree : Option RouteTree}
    (htree : ∀ node ∈ tree, node.AllOrdered) :
    changes.foldl (fun tree change => takenOver config fresh change tree) tree =
      changes'.foldl (fun tree change => takenOver config fresh change tree) tree := by
  induction hperm generalizing tree with
  | nil => rfl
  | cons change _ ih => exact ih (allOrdered_takenOver hfresh htree change)
  | swap first second rest =>
      rw [List.foldl_cons, List.foldl_cons, List.foldl_cons, List.foldl_cons,
        takenOver_comm hfresh htree]
  | trans _ _ ih ih' => exact (ih htree).trans (ih' htree)

/-! ### Taking over -/

variable [Recovery] {run : Formatter.Runner} {live : LiveTree} {workspace : Workspace}

/-- The new node of a place is the one that the full build has there. -/
theorem Settled.exists_updated (h : Settled config files changes)
    (hfresh : FullBuild config files fresh) (hc : change ∈ changes) {place : List String}
    (hplace : IsTarget place) (hne : place ≠ [])
    (hloc : locate? config (.ofString change.2) =
      some ⟨config.appDir.descend place, Segment.keys place⟩)
    {current : FileTree}
    (hsame : current.entriesAt config.appDir.parts = files.entriesAt config.appDir.parts)
    (tree : RouteTree) :
    ∃ notices, updated config current (some tree) change.1 (.ofString change.2) =
      placed tree ⟨config.appDir.descend place, Segment.keys place⟩
        ⟨fresh.nodeAt? (Segment.keys place), notices⟩ := by
  obtain ⟨new, hnew⟩ := exists_nodeAt hplace h.wellFormed h.analyzable
  have hmem : ∃ change ∈ changes, (locate? config (.ofString change.2)).map (·.directory) =
      some (config.appDir.descend place) := ⟨change, hc, by rw [hloc]; rfl⟩
  have hdeleted : new = none → change.1 = .deleted := by
    rintro rfl
    by_contra hthere
    obtain ⟨entries, hat⟩ := h.exists_directory hc hthere hloc rfl hne
    exact hnew entries hat
  rw [h.nodeAt?_eq hfresh hplace hne hmem hnew]
  exact updated_of_place h.resolved hplace hne hloc (nodeAt_of_entriesAt hne hnew hsame) hdeleted tree

/-- A change of settled files takes its node over from the full build, and the files stay settled. -/
theorem Settled.tree_handleEvent (h : Settled config files changes)
    (hfresh : FullBuild config files fresh) (run : Formatter.Runner) (hc : change ∈ changes)
    {tree : RouteTree} (htree : tree.AllOrdered) (hlive : live.tree = some tree)
    (hsame : workspace.files.entriesAt config.appDir.parts = files.entriesAt config.appDir.parts)
    (refused : Generation.Refusals) :
    (runOn (handleEvent run config change.1 (.ofString change.2) refused) live workspace).1.2.tree =
      takenOver config fresh change live.tree := by
  have hroute := h.isRouteFile change hc
  delta takenOver
  rw [hlive]
  cases hloc : locate? config (.ofString change.2) with
  | none =>
      have hupdated : updated config workspace.files live.tree change.1 (.ofString change.2) =
          .error .outsideAppDirectory := by
        unfold updated
        rw [hloc]
        rfl
      obtain ⟨result, notices, hr⟩ := runOn_handleEvent_of_error run live workspace hroute hupdated refused
      rw [hr]
      exact hlive
  | some target =>
      obtain ⟨place, hplace, rfl⟩ := locate?_eq_some hroute hloc
      rw [h.resolved] at hloc
      by_cases hne : place = []
      · subst hne
        rw [Path.descend_nil] at hloc
        have hroot : ∃ notices, updated config workspace.files (some tree) change.1
            (.ofString change.2) = .ok ⟨fresh, notices⟩ :=
          updated_of_root h.resolved hloc (hfresh.of_entriesAt h.resolved hsame) tree
        obtain ⟨notices, hupdated⟩ := hroot
        rw [← hlive] at hupdated
        obtain ⟨result, after, hr, -⟩ := runOn_handleEvent run live workspace hroute hupdated refused
        rw [hr]
        rfl
      · have hkeys := Segment.keys_ne_nil hplace.noEmpty (hplace.endsShown hne)
        obtain ⟨notices, hupdated⟩ := h.exists_updated hfresh hc hplace hne hloc hsame tree
        rw [← hlive] at hupdated
        -- Without a way to the place the change is dropped, and a refresh does nothing either.
        cases hreplace : tree.replaceAt (Segment.keys place)
            (fresh.nodeAt? (Segment.keys place)) with
        | ok result =>
            have htaken : RouteTree.refresh (some fresh) (Segment.keys place) (some tree) =
                some result := RouteTree.refresh_of_replaceWithin_eq_ok hkeys hreplace
            obtain ⟨ending, after, hr, -⟩ := runOn_handleEvent run live workspace hroute
              (hupdated.trans (placed_of_ok hreplace)) refused
            rw [hr]
            exact htaken.symm
        | error cause =>
            have htaken : RouteTree.refresh (some fresh) (Segment.keys place) (some tree) =
                some tree := RouteTree.refresh_of_replaceWithin_eq_error htree hkeys hreplace
            rw [runOn_handleEvent_of_noPlace run live workspace hroute
              (hupdated.trans (placed_of_error hreplace)) refused]
            exact hlive.trans htaken.symm

theorem Settled.entriesAt_handleEvent (h : Settled config files changes)
    (run : Formatter.Runner) (change : Change × String) (live : LiveTree)
    (hsame : workspace.files.entriesAt config.appDir.parts = files.entriesAt config.appDir.parts)
    (refused : Generation.Refusals) :
    (runOn (handleEvent run config change.1 (.ofString change.2) refused) live workspace).2.files.entriesAt
      config.appDir.parts = files.entriesAt config.appDir.parts := by
  rcases runOn_handleEvent_cases run config change.1 (.ofString change.2) live workspace refused with
    ⟨result, notices, hr⟩ | ⟨fresh, result, after, -, -, hr, hwritten⟩
  · rw [hr]
    exact hsame
  · rw [hr]
    have hentries := FileTree.wellFormed_entriesAt h.wellFormed config.appDir.parts
    have hbeside := h.beside
    rw [Config.WritesBeside, ← hsame] at hbeside
    rw [← hsame] at hentries
    exact (hwritten.entriesAt_appDir hentries hbeside).trans hsame

/-- The live tree and the workspace after one change, however it ends and whatever writes are refused. -/
def afterEvent (run : Formatter.Runner) (config : Config)
    (refused : Change × String → Generation.Refusals) (state : LiveTree × Workspace)
    (change : Change × String) : LiveTree × Workspace :=
  let outcome := runOn (handleEvent run config change.1 (.ofString change.2) (refused change))
    state.1 state.2
  (outcome.1.2, outcome.2)

/-- Changes of settled files, one after the other, all take their nodes over from the full build. -/
theorem Settled.tree_foldl_afterEvent (h : Settled config files changes)
    (hfresh : FullBuild config files fresh) {applied : List (Change × String)}
    (hmem : ∀ change ∈ applied, change ∈ changes) {tree : RouteTree} (htree : tree.AllOrdered)
    (hlive : live.tree = some tree)
    (hsame : workspace.files.entriesAt config.appDir.parts = files.entriesAt config.appDir.parts)
    (refused : Change × String → Generation.Refusals) :
    (applied.foldl (afterEvent run config refused) (live, workspace)).1.tree =
      applied.foldl (fun tree change => takenOver config fresh change tree) live.tree := by
  induction applied generalizing tree live workspace with
  | nil => rfl
  | cons change rest ih =>
      have htaken := h.tree_handleEvent hfresh run (hmem change List.mem_cons_self) htree
        hlive hsame (refused change)
      have hsame' := h.entriesAt_handleEvent run change live hsame (refused change)
      obtain ⟨tree', hnext⟩ : ∃ tree', takenOver config fresh change live.tree = some tree' :=
        hlive ▸ exists_takenOver fresh change tree
      have hordered : ∀ node ∈ live.tree, node.AllOrdered := fun node hn => by
        rw [hlive] at hn
        obtain rfl := Option.some.inj hn
        exact htree
      have hallOrdered := ((fullBuild_iff h.resolved).1 hfresh).allOrdered
      have htree' := allOrdered_takenOver hallOrdered hordered change tree' hnext
      rw [List.foldl_cons, List.foldl_cons, ← htaken]
      exact ih (fun other ho => hmem other (List.mem_cons_of_mem _ ho)) htree'
        (htaken.trans hnext) hsame'

/-- In whatever order the changes of settled files are taken over, one at a time, and whatever writes are
refused, they leave the same live tree. -/
theorem Settled.tree_eq_of_perm (h : Settled config files changes) {tree : RouteTree}
    (htree : tree.AllOrdered) (run : Formatter.Runner) (version : Nat) (reported : List Notice)
    (refused refused' : Change × String → Generation.Refusals) {changes' : List (Change × String)}
    (hperm : changes.Perm changes') :
    (changes.foldl (afterEvent run config refused) (⟨some tree, version⟩, ⟨files, reported⟩)).1.tree =
      (changes'.foldl (afterEvent run config refused') (⟨some tree, version⟩, ⟨files, reported⟩)).1.tree := by
  obtain ⟨fresh, hfresh⟩ := exists_fullBuild h.resolved h.wellFormed h.analyzable
  have hallOrdered := ((fullBuild_iff h.resolved).1 hfresh).allOrdered
  rw [h.tree_foldl_afterEvent hfresh (fun change hc => hc) htree rfl rfl refused,
    h.tree_foldl_afterEvent hfresh (fun change hc => hperm.mem_iff.2 hc) htree rfl rfl refused']
  refine foldl_takenOver_perm hallOrdered hperm fun node hn => ?_
  obtain rfl := Option.some.inj hn
  exact htree

end

/-! ### Two notifications -/

/-- A directory has been changed, and one in it is gone. -/
def twoChanges : List (Change × String) :=
  [(.modified, "/work/routes/project/app/users/route.ts"),
    (.deleted, "/work/routes/project/app/users/old/route.ts")]

attribute [local instance] Host.solitary Recovery.verbatim

theorem settled_twoChanges : Settled smallConfig
    (smallFiles [("users", .directory [("route.ts", smallRoute)])]) twoChanges where
  resolved := by decide
  wellFormed := by decide
  beside := writesOutside_small.writesBeside _
  analyzable := by
    obtain ⟨node, hn⟩ := exists_builds_small
    exact hn.analyzable
  isRouteFile := by decide
  isFileAt := by decide
  distinct := by
    have hpair : Set.InjOn Segment.keys {["users"], ["users", "old"]} := by
      intro place hplace other hother hsame
      rcases hplace with rfl | rfl <;> rcases hother with rfl | rfl
      all_goals first | rfl | (revert hsame; decide)
    refine hpair.mono fun place hplace => ?_
    rcases hplace with hshows | ⟨change, hc, hlocated⟩
    · exact Or.inl (eq_of_shows hshows (by decide))
    · have htargets : ∀ change ∈ twoChanges, ∃ names ∈ [["users"], ["users", "old"]],
          (locate? smallConfig (.ofString change.2)).map (·.directory) =
            some (smallConfig.appDir.descend names) := by decide
      obtain ⟨names, hnames, hdirectory⟩ := htargets change hc
      have hsame := Option.some.inj (hdirectory.symm.trans hlocated)
      obtain rfl := List.append_cancel_left (congrArg Path.parts hsame)
      simpa using hnames

/-- The second notification alone is dropped, but not after the first one. Both orders lead to the same
tree. -/
theorem tree_eq_of_swapped :
    (twoChanges.foldl (afterEvent (fun _ _ _ => .notStarted) smallConfig fun _ => Generation.noRefusals)
        (⟨some (.node { segment := "app" } []), 1⟩,
          ⟨smallFiles [("users", .directory [("route.ts", smallRoute)])], []⟩)).1.tree =
      (twoChanges.reverse.foldl (afterEvent (fun _ _ _ => .notStarted) smallConfig fun _ => Generation.noRefusals)
        (⟨some (.node { segment := "app" } []), 1⟩,
          ⟨smallFiles [("users", .directory [("route.ts", smallRoute)])], []⟩)).1.tree := by
  have hordered : (RouteTree.node { segment := "app" } []).AllOrdered := by
    intro keys node hn
    cases keys with
    | nil =>
        cases hn
        exact List.Pairwise.nil
    | cons key rest => cases hn
  exact settled_twoChanges.tree_eq_of_perm hordered (fun _ _ _ => .notStarted) 1 [] _ _
    (List.reverse_perm twoChanges).symm

end Coordinator

end RouteBinder.Project
