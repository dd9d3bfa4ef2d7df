import RouteBinder.Proofs.FileSystem.Writes
import RouteBinder.Proofs.Project.Batches
import RouteBinder.Proofs.Project.BuiltNodes
import RouteBinder.Proofs.Project.IncrementalUpdate

/-!
# RouteBinder.Proofs.Project.Representation

**What live trees look like.** Whatever changes are taken over, on whatever files, the live tree stays a
tree of directories: every node `Represents` what is below one, and its children stand for directories
whose visible key paths lead to them.

The invariant is `Faithful`, which speaks about a subtree and the keys that lead to it. Builds have it
(`Build.Builds.faithful`), and replacing a faithful subtree keeps it (`Faithful.replaceWithin`). All that
the coordinator does to its tree is one of the two, so every `Reached` tree has it.
-/

namespace RouteBinder.Project

open FileSystem Route Analysis Body

/-! ### Trees of directories -/

/-- The child is the node of a directory below `appDir`, and the visible key path of the directory is the
key path of the child. -/
structure StandsFor (appDir : Path) (keys : List String) (key : String) (child : RouteTree) : Prop where
  key_eq : key = (Segment.classify child.segment).key
  shown : (Segment.classify child.segment).isTransparent = false
  exists_directory : ∃ directory names, child.directory = some directory ∧
    directory.parts.getLast? = some child.segment ∧ directory.below? appDir = some names ∧
    Segment.keys names = keys ++ [key]

/-- What holds at a node that some keys lead to. -/
structure Represents (appDir : Path) (keys : List String) (node : RouteTree) : Prop where
  /-- The children are in the order of their keys. -/
  ordered : node.children.Pairwise fun a b => a.1 < b.1
  /-- No verb is implemented twice. -/
  nodup_verbs : (node.handlers.map (·.verb)).Nodup
  children : ∀ key child, (key, child) ∈ node.children → StandsFor appDir keys key child

/-- The node is that of the directory at a place that shows up, and has the keys of the place. -/
def IsNodeAt (appDir : Path) (keys : List String) (node : RouteTree) : Prop :=
  ∃ place, "" ∉ place ∧ Segment.EndsShown place ∧ Segment.keys place = keys ∧
    node.directory = some (appDir.descend place) ∧ node.segment = (appDir.descend place).name

theorem IsNodeAt.standsFor {appDir : Path} {keys : List String} {key : String} {child : RouteTree}
    (h : IsNodeAt appDir (keys ++ [key]) child) : StandsFor appDir keys key child := by
  obtain ⟨place, hempty, ⟨last, hlast, hshown⟩, hkeys, hdirectory, hsegment⟩ := h
  obtain ⟨front, rfl⟩ := List.getLast?_eq_some_iff.1 hlast
  have hname : child.segment = last := by
    rw [hsegment]
    simp [Path.name, Path.descend, ← List.append_assoc]
  have hne : last ≠ "" := fun h => hempty (h ▸ List.mem_append_right _ List.mem_cons_self)
  refine ⟨?_, hname ▸ hshown, appDir.descend (front ++ [last]), front ++ [last], hdirectory, ?_,
    Coordinator.below?_descend appDir _, hkeys⟩
  · have hlastkey := hkeys
    rw [Segment.keys_append, Segment.keys_cons_of_shown hne hshown, Segment.keys_nil] at hlastkey
    rw [hname]
    exact (List.append_inj' hlastkey rfl).2 |> List.singleton_inj.1 |>.symm
  · simp [hname, Path.descend, ← List.append_assoc]

/-- All nodes of a subtree have different verbs and their children in order; and below the root of the
whole tree, each is that of a directory with the keys that lead to it. -/
def Faithful (appDir : Path) (above : List String) (tree : RouteTree) : Prop :=
  ∀ keys node, tree.nodeAt? keys = some node →
    node.Ordered ∧ DistinctVerbs node.handlers ∧
      (above ++ keys ≠ [] → IsNodeAt appDir (above ++ keys) node)

variable {appDir : Path} {above : List String} {tree : RouteTree}

theorem Faithful.allOrdered (h : Faithful appDir above tree) : tree.AllOrdered :=
  fun keys node hn => (h keys node hn).1

theorem Faithful.child {child : RouteTree} {key : String} (h : Faithful appDir above tree)
    (hc : tree.child? key = some child) : Faithful appDir (above ++ [key]) child := by
  intro keys node hn
  rw [List.append_assoc]
  exact h (key :: keys) node ((RouteTree.nodeAt?_cons hc keys).trans hn)

theorem Faithful.represents (h : Faithful appDir [] tree) {keys : List String} {node : RouteTree}
    (hn : (keys, node) ∈ tree.nodes) : Represents appDir keys node := by
  have hat := RouteTree.nodeAt?_of_mem_nodes h.allOrdered hn
  obtain ⟨hordered, hverbs, -⟩ := h keys node hat
  refine ⟨hordered, hverbs.nodup, fun key child hmem => ?_⟩
  have hc : node.child? key = some child := hordered.lookup_of_mem hmem
  have hchild : tree.nodeAt? (keys ++ [key]) = some child := by
    rw [RouteTree.nodeAt?_append, hat, Option.bind_some, RouteTree.nodeAt?_cons hc]
    rfl
  obtain ⟨-, -, hplace⟩ := h (keys ++ [key]) child hchild
  exact (hplace (by simp)).standsFor

/-! ### Replacements -/

theorem Faithful.setChild (h : Faithful appDir above tree) {key : String} {new : Option RouteTree}
    (hnew : ∀ child, new = some child → Faithful appDir (above ++ [key]) child) :
    Faithful appDir above (tree.setChild key new) := by
  intro keys node hn
  cases keys with
  | nil =>
      cases hn
      obtain ⟨hordered, hverbs, hplace⟩ := h [] tree rfl
      refine ⟨hordered.setChild key new, ?_, ?_⟩
      · rwa [RouteTree.handlers, RouteTree.info_setChild]
      · rwa [IsNodeAt, RouteTree.directory, RouteTree.segment, RouteTree.info_setChild]
  | cons next rest =>
      rw [RouteTree.nodeAt?_setChild_cons] at hn
      split at hn
      · rename_i hk
        subst hk
        obtain ⟨child, hc, hn⟩ := Option.bind_eq_some_iff.1 hn
        have hchild := hnew child hc rest node hn
        rwa [List.append_assoc] at hchild
      · exact h (next :: rest) node hn

/-- A faithful subtree can take the place of any other. -/
theorem Faithful.replaceWithin {path keys : List String} {new : Option RouteTree}
    {result : RouteTree} (h : Faithful appDir above tree) (hk : keys ≠ [])
    (hnew : ∀ node, new = some node → Faithful appDir (above ++ keys) node)
    (hr : tree.replaceWithin path new keys = .ok result) : Faithful appDir above result := by
  induction keys generalizing above tree result with
  | nil => exact absurd rfl hk
  | cons key rest ih =>
      obtain ⟨child?, rfl, hchild⟩ := RouteTree.replaceWithin_cons_eq_ok.1 hr
      refine h.setChild fun child hc => ?_
      subst hc
      rcases hchild with ⟨rfl, rfl⟩ | ⟨hrest, old, child', hold, hw, heq⟩
      · exact hnew child rfl
      · cases heq
        refine ih (h.child hold) hrest (fun node hn => ?_) hw
        rw [List.append_assoc]
        exact hnew node hn

/-! ### Builds -/

/-- The build of a directory below `appDir` is faithful to the place of the directory. -/
theorem Build.Builds.faithful [Recovery] {routeFile : String} {place : List String} {files : FileTree}
    (h : Build.Builds routeFile (appDir.descend place) files tree) (hw : files.wellFormed = true)
    (hempty : "" ∉ place) (hends : place ≠ [] → Segment.EndsShown place) :
    Faithful appDir (Segment.keys place) tree := by
  intro keys node hn
  refine ⟨h.allOrdered keys node hn, ?_⟩
  by_cases hk : keys = []
  · subst hk
    cases hn
    refine ⟨h.distinctVerbs, fun hne => ?_⟩
    rw [List.append_nil] at hne ⊢
    have hplace : place ≠ [] := by
      rintro rfl
      exact hne rfl
    exact ⟨place, hempty, hends hplace, rfl, h.isNodeOf⟩
  -- Below the root of the build, the directory of the node is further down.
  · obtain ⟨below, ⟨⟨hshown, -, -⟩, entry, hat, hb⟩, hkeys⟩ :=
      h.exists_showsNode_of_nodeAt? hw hk hn
    have hnames := FileTree.isEntryName_of_at? hw hat
    refine ⟨hb.distinctVerbs, fun _ => ⟨place ++ below, ?_, ?_, ?_, ?_⟩⟩
    · rw [List.mem_append, not_or]
      exact ⟨hempty, fun hn => (FileTree.isEntryName_iff.1 (hnames _ hn)).1 rfl⟩
    · exact (Segment.endsShown_append hshown.ne_nil place).2 hshown
    · rw [Segment.keys_append, hkeys]
    · rw [← Path.descend_descend]
      exact hb.isNodeOf

namespace Coordinator

section

variable [Host] [Recovery] {config : Config}

theorem FullBuild.faithful (hresolved : config.appDir.resolve = config.appDir) {files : FileTree}
    (h : FullBuild config files tree) (hw : files.wellFormed = true) :
    Faithful config.appDir [] tree := by
  have hb := (fullBuild_iff hresolved).1 h
  rw [← Path.descend_nil config.appDir] at hb
  exact hb.faithful (wellFormed_routesIn hw) List.not_mem_nil fun hne => absurd rfl hne

/-- What stands where a target is read again, whether there is a directory or not, has a faithful
build. -/
theorem faithful_of_built (hresolved : config.appDir.resolve = config.appDir) {files : FileTree}
    {place : List String} (hplace : IsTarget place) (hne : place ≠ [])
    (hw : files.wellFormed = true) {noted : Noted RouteTree}
    (h : built config files (config.appDir.descend place) = .ok noted) :
    Faithful config.appDir (Segment.keys place) noted.value := by
  have hfind := find?_routesIn hresolved hplace.noDots hne files
  rw [built, Build.routeTree_eq, hfind] at h
  cases hat : (routesIn config files).at? place with
  | none =>
      rw [hat] at h
      cases h
      have hbuilds : Build.Builds config.routeFile (config.appDir.descend place) (.file .empty)
          (Build.bareNode (config.appDir.descend place) {}) := Build.builds_file.2 rfl
      exact hbuilds.faithful rfl hplace.noEmpty hplace.endsShown
  | some entry =>
      rw [hat] at h
      cases hb : Build.ofTree config.routeFile (config.appDir.descend place) entry with
      | error cause =>
          simp only [hb] at h
          cases h
      | ok subtree =>
          simp only [hb] at h
          obtain rfl := Except.ok.inj h
          have hbuilds : Build.Builds config.routeFile (config.appDir.descend place) entry
              subtree.value := ⟨_, hb⟩
          exact hbuilds.faithful (FileTree.wellFormed_at? (wellFormed_routesIn hw) hat)
            hplace.noEmpty hplace.endsShown

theorem fullBuild_of_built (hresolved : config.appDir.resolve = config.appDir) {files : FileTree}
    {noted : Noted RouteTree} (h : built config files config.appDir.resolve = .ok noted) :
    FullBuild config files noted.value := by
  rw [hresolved, built] at h
  cases hb : Build.routeTree files config.appDir config.routeFile with
  | error cause =>
      rw [hb] at h
      cases h
  | ok fresh =>
      rw [hb] at h
      obtain rfl := Except.ok.inj h
      exact ⟨_, hb⟩

omit [Host] [Recovery] in
theorem replaceAt_of_placed {target : UpdateTarget} {subtree : Noted (Option RouteTree)}
    {noted : Noted RouteTree} (h : placed tree target subtree = .ok noted) :
    tree.replaceAt target.keys subtree.value = .ok noted.value := by
  rw [placed] at h
  split at h
  · rename_i new hr
    cases h
    exact hr
  · cases h

/-- An updated tree is a full build, or has one faithful subtree replaced. -/
theorem faithful_of_updated (hresolved : config.appDir.resolve = config.appDir) {files : FileTree}
    {live : Option RouteTree} {change : Change} {text : String} {noted : Noted RouteTree}
    (hroute : RouteFiles.isRouteFile (.ofString text) config.appDir config.routeFile = true)
    (hw : files.wellFormed = true)
    (hlive : ∀ tree, live = some tree → Faithful config.appDir [] tree)
    (h : updated config files live change (.ofString text) = .ok noted) :
    Faithful config.appDir [] noted.value := by
  unfold updated at h
  cases hloc : locate? config (.ofString text) with
  | none =>
      rw [hloc] at h
      cases h
  | some target =>
      obtain ⟨place, hplace, rfl⟩ := locate?_eq_some hroute hloc
      rw [hresolved] at hloc
      rw [hloc] at h
      cases live with
      | none => exact (fullBuild_of_built hresolved h).faithful hresolved hw
      | some tree =>
          have htree := hlive tree rfl
          dsimp only at h
          split at h
          · exact (fullBuild_of_built hresolved h).faithful hresolved hw
          · rename_i hkeys
            have hkeys : Segment.keys place ≠ [] := fun hnil => hkeys (List.isEmpty_iff.2 hnil)
            have hne : place ≠ [] := by
              rintro rfl
              exact hkeys rfl
            split at h
            -- The directory is gone.
            · exact htree.replaceWithin hkeys (fun node hn => by cases hn) (replaceAt_of_placed h)
            · cases hb : built config files (config.appDir.descend place) with
              | error cause =>
                  rw [hb] at h
                  cases h
              | ok subtree =>
                  rw [hb] at h
                  refine htree.replaceWithin hkeys (fun node hn => ?_) (replaceAt_of_placed h)
                  obtain rfl := Option.some.inj hn
                  exact faithful_of_built hresolved hplace hne hw hb

/-! ### Runs -/

omit [Recovery] in
/-- Files stay well-formed when both files are written. -/
theorem wellFormed_of_written (hout : config.outDir.HasTextNames) {before after : FileTree}
    (h : Generation.Written config before after) (hw : before.wellFormed = true) :
    after.wellFormed = true := by
  induction h with
  | refl => exact hw
  | tail hsteps hstep ih =>
      obtain ⟨destination, content, faults, hdestination, rfl⟩ := hstep
      refine AtomicWrite.wellFormed_write _ content ?_ ih
      rcases hdestination with rfl | rfl
      · exact hout.join (Path.hasTextNames_ofString _)
      · exact hout.join (Path.hasTextNames_ofString _)

/-- The live tree is faithful, and the files are well-formed. -/
def Sound (config : Config) (live : LiveTree) (workspace : Workspace) : Prop :=
  (∀ tree, live.tree = some tree → Faithful config.appDir [] tree) ∧
    workspace.files.wellFormed = true

variable {live : LiveTree} {workspace : Workspace}

omit [Recovery] in
theorem Sound.of_next (h : Sound config live workspace) (hout : config.outDir.HasTextNames)
    {fresh : RouteTree} (hfresh : Faithful config.appDir [] fresh) {version : Nat}
    {after : Workspace} (hwritten : Generation.Written config workspace.files after.files) :
    Sound config ⟨some fresh, version⟩ after := by
  refine ⟨fun tree ht => ?_, wellFormed_of_written hout hwritten h.2⟩
  obtain rfl := Option.some.inj ht
  exact hfresh

theorem Sound.start (h : Sound config live workspace)
    (hresolved : config.appDir.resolve = config.appDir) (hout : config.outDir.HasTextNames)
    (run : Formatter.Runner) (refused : Generation.Refusals) :
    Sound config (runOn (start run config refused) live workspace).1.2
      (runOn (start run config refused) live workspace).2 := by
  rcases runOn_start_cases run config live workspace refused with
    ⟨result, hr⟩ | ⟨fresh, result, after, hb, hr, hwritten⟩
  · rw [hr]
    exact h
  · rw [hr]
    have hfresh : FullBuild config workspace.files fresh.value := ⟨_, hb⟩
    exact h.of_next hout (hfresh.faithful hresolved h.2) hwritten

theorem Sound.handleEvent (h : Sound config live workspace)
    (hresolved : config.appDir.resolve = config.appDir) (hout : config.outDir.HasTextNames)
    (run : Formatter.Runner) (change : Change) (text : String) (refused : Generation.Refusals) :
    Sound config (runOn (handleEvent run config change (.ofString text) refused) live workspace).1.2
      (runOn (handleEvent run config change (.ofString text) refused) live workspace).2 := by
  rcases runOn_handleEvent_cases run config change (.ofString text) live workspace refused with
    ⟨result, notices, hr⟩ | ⟨fresh, result, after, hroute, hupdated, hr, hwritten⟩
  · rw [hr]
    exact h
  · rw [hr]
    exact h.of_next hout (faithful_of_updated hresolved hroute h.2 h.1 hupdated) hwritten

/-- A batch goes from one change to the next, or ends early. -/
theorem Sound.forM_takeOver (h : Sound config live workspace)
    (hresolved : config.appDir.resolve = config.appDir) (hout : config.outDir.HasTextNames)
    (run : Formatter.Runner) (refused : Generation.Refusals) (changes : List (Change × String)) :
    Sound config (runOn (forM changes (takeOver run config refused)) live workspace).1.2
      (runOn (forM changes (takeOver run config refused)) live workspace).2 := by
  induction changes generalizing live workspace with
  | nil => exact h
  | cons change rest ih =>
      have hnext := h.handleEvent hresolved hout run change.1 change.2 refused
      rw [List.forM_cons, runOn_bind, takeOver, runOn_bind]
      revert hnext
      generalize runOn (Coordinator.handleEvent run config change.1 (.ofString change.2) refused) live
        workspace = outcome
      obtain ⟨⟨result, live'⟩, after⟩ := outcome
      intro hnext
      cases result with
      | error cause => exact hnext
      | ok applied => exact ih hnext

/-- The live trees that the coordinator comes to. Each start, change or batch of changes may meet other
files and another formatter, writes may be refused, and it may end in any way. -/
inductive Reached (config : Config) : LiveTree → Prop where
  | initial : Reached config {}
  | start {live : LiveTree} (h : Reached config live) (run : Formatter.Runner)
      (refused : Generation.Refusals) (workspace : Workspace)
      (hw : workspace.files.wellFormed = true) :
      Reached config (runOn (start run config refused) live workspace).1.2
  | event {live : LiveTree} (h : Reached config live) (run : Formatter.Runner) (change : Change)
      (text : String) (refused : Generation.Refusals) (workspace : Workspace)
      (hw : workspace.files.wellFormed = true) :
      Reached config (runOn (handleEvent run config change (.ofString text) refused) live workspace).1.2
  | batch {live : LiveTree} (h : Reached config live) (run : Formatter.Runner)
      (changes : List (Change × String)) (refused : Generation.Refusals) (workspace : Workspace)
      (hw : workspace.files.wellFormed = true) :
      Reached config (runOn (handleChanges run config changes refused) live workspace).1.2

theorem Reached.faithful (h : Reached config live)
    (hresolved : config.appDir.resolve = config.appDir) (hout : config.outDir.HasTextNames) :
    ∀ tree, live.tree = some tree → Faithful config.appDir [] tree := by
  induction h with
  | initial => exact fun tree ht => by cases ht
  | start h run refused workspace hw ih =>
      exact (Sound.start ⟨ih, hw⟩ hresolved hout run refused).1
  | event h run change text refused workspace hw ih =>
      exact (Sound.handleEvent ⟨ih, hw⟩ hresolved hout run change text refused).1
  | batch h run changes refused workspace hw ih =>
      rw [handleChanges_eq]
      exact (Sound.forM_takeOver ⟨ih, hw⟩ hresolved hout run refused _).1

/-- Every node of every live tree represents directories below the directory of the routes. -/
theorem represents_of_reached (hresolved : config.appDir.resolve = config.appDir)
    (hout : config.outDir.HasTextNames) (h : Reached config live) {tree : RouteTree}
    (ht : live.tree = some tree) {keys : List String} {node : RouteTree}
    (hn : (keys, node) ∈ tree.nodes) : Represents config.appDir keys node :=
  (h.faithful hresolved hout tree ht).represents hn

end

attribute [local instance] Host.solitary Recovery.verbatim

/-- The start builds the small project, whose directory stands for its route. -/
theorem represents_of_reached_started : ∃ tree child,
    Reached smallConfig ⟨some tree, 1⟩ ∧ smallConfig.appDir.resolve = smallConfig.appDir ∧
      smallConfig.outDir.HasTextNames ∧ ([], tree) ∈ tree.nodes ∧
      tree.child? "users" = some child ∧ Represents smallConfig.appDir [] tree := by
  have hout : smallConfig.outDir.HasTextNames := by
    unfold Path.HasTextNames
    decide
  obtain ⟨tree, hn⟩ := exists_builds_small
  have hchild : ∃ child, tree.child? "users" = some child := by
    obtain ⟨analysis, -, ha⟩ := Build.builds_directory.1 hn
    obtain ⟨child, -, ha⟩ := (Build.attaches_cons_of_taken (by decide)).1 ha
    rw [Build.attaches_nil.1 ha, Build.attach_eq_setChild (by decide) rfl]
    exact ⟨child, RouteTree.child?_setChild_self _ _ _⟩
  obtain ⟨child, hchild⟩ := hchild
  obtain ⟨notices, hb⟩ := hn
  have hfull : Build.routeTree (smallFiles [("users", .directory [("route.ts", smallRoute)])])
      smallConfig.appDir smallConfig.routeFile = .ok ⟨tree, notices⟩ := hb
  obtain ⟨result, after, hr, -⟩ := runOn_start (fun _ _ _ => .notStarted) {}
    ⟨smallFiles [("users", .directory [("route.ts", smallRoute)])], []⟩ (by decide) hfull
  have hreached := Reached.start (.initial : Reached smallConfig {}) (fun _ _ _ => .notStarted)
    Generation.noRefusals ⟨smallFiles [("users", .directory [("route.ts", smallRoute)])], []⟩ (by decide)
  rw [hr] at hreached
  have hroot := RouteTree.mem_nodes_self tree
  exact ⟨tree, child, hreached, by decide, hout, hroot, hchild,
    represents_of_reached (by decide) hout hreached rfl hroot⟩

end Coordinator

end RouteBinder.Project
