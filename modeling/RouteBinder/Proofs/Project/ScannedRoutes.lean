import RouteBinder.Proofs.Project.BuiltNodes
import RouteBinder.Proofs.Project.Targets

/-!
# RouteBinder.Proofs.Project.ScannedRoutes

**No handler is lost silently.** A handler that a build leaves out is always reported: its file cannot be
read or has syntax errors, its verb is taken, or the key of a directory around it is. So a build without
notices has exactly the handlers of the route files that `RouteFiles.scan` lists, each with the visible
key path of the directory of its file (`Build.perm_routes_scan`).

The build and the scan go through the files on their own. The proof follows both of them down the tree:
`Build.BuildsQuietly` and `Build.AttachesQuietly` are the runs of a build without notices, and each step
of them adds the routes of one directory.
-/

namespace RouteBinder.Project

open FileSystem Route Analysis Body

/-! ### Route files and their routes -/

section

variable [Host] [Recovery]

/-- The analysis of the file at a path, when it can be read and has no syntax errors. -/
def analyzed? (files : FileTree) (path : Path) : Option ModuleAnalysis :=
  (files.content? path).bind fun content =>
    (FileTree.decode? content).bind fun source => (analyze source (some path.parent)).toOption

/-- The handlers of the file at a path, with the visible key path of its directory. -/
def fileRoutes (files : FileTree) (appDir path : Path) : List (List String × Handler) :=
  match path.parent.below? appDir.resolve, analyzed? files path with
  | some names, some analysis => analysis.handlers.map (Segment.keys names, ·)
  | _, _ => []

/-- The files are all below the directory of the routes and can be analyzed, and these are their
routes. -/
structure Accounts (files : FileTree) (appDir : Path) (paths : List Path)
    (routes : List (List String × Handler)) : Prop where
  analyzed : ∀ path ∈ paths, (path.parent.below? appDir.resolve).isSome = true ∧
    (analyzed? files path).isSome = true
  perm : routes.Perm (paths.flatMap (fileRoutes files appDir))

variable {files : FileTree} {appDir : Path}

theorem Accounts.nil : Accounts files appDir [] [] :=
  ⟨fun _ h => absurd h List.not_mem_nil, List.Perm.refl _⟩

theorem Accounts.append {paths paths' : List Path} {routes routes' : List (List String × Handler)}
    (h : Accounts files appDir paths routes) (h' : Accounts files appDir paths' routes') :
    Accounts files appDir (paths ++ paths') (routes ++ routes') := by
  refine ⟨fun path hp => ?_, ?_⟩
  · rcases List.mem_append.1 hp with hp | hp
    · exact h.analyzed path hp
    · exact h'.analyzed path hp
  · rw [List.flatMap_append]
    exact h.perm.append h'.perm

theorem Accounts.of_perm {paths paths' : List Path} {routes routes' : List (List String × Handler)}
    (h : Accounts files appDir paths routes) (hpaths : paths'.Perm paths)
    (hroutes : routes'.Perm routes) : Accounts files appDir paths' routes' :=
  ⟨fun path hp => h.analyzed path (hpaths.mem_iff.1 hp),
    hroutes.trans (h.perm.trans (hpaths.flatMap_right _).symm)⟩

/-! ### The file of one directory -/

omit [Host] in
/-- Where a file is only decides how its imports are found. -/
theorem handlers_of_analyze {source : String} {origin : Option Path} {analysis : ModuleAnalysis}
    (h : analyze source origin = .ok analysis) (other : Option Path) :
    ∃ analysis', analyze source other = .ok analysis' ∧ analysis'.handlers = analysis.handlers := by
  obtain ⟨program, handlers, hp, hm, rfl⟩ := analyze_eq_ok.1 h
  exact ⟨_, analyze_eq_ok.2 ⟨program, handlers, hp, hm, rfl⟩, rfl⟩

omit [Host] in
/-- A route file that nothing is reported of is analyzed. -/
theorem Build.analyze_of_quiet {directory : Path} {routeFile : String} {content : ByteArray}
    {analysis : ModuleAnalysis}
    (h : analyzeFile directory routeFile (some (.file content)) = .ok ⟨analysis, []⟩) :
    ∃ source, FileTree.decode? content = some source ∧
      analyze source (some directory) = .ok analysis := by
  simp only [analyzeFile_eq] at h
  cases hdecode : FileTree.decode? content with
  | none =>
      rw [hdecode] at h
      cases h
  | some source =>
      rw [hdecode] at h
      dsimp only at h
      cases hanalyze : analyze source (some directory) with
      | error cause =>
          rw [hanalyze] at h
          cases cause <;> cases h
      | ok found =>
          rw [hanalyze] at h
          cases h
          exact ⟨source, rfl, hanalyze⟩

/-- The routes of a file that is found at a place below the directory of the routes. -/
theorem accounts_singleton {place : List String} {name source : String} {content : ByteArray}
    {analysis : ModuleAnalysis} (hw : files.wellFormed = true)
    (hat : files.at? (appDir.resolve.parts ++ (place ++ [name])) = some (.file content))
    (hdecode : FileTree.decode? content = some source)
    (hanalyze : analyze source (some (appDir.descend place)) = .ok analysis) :
    Accounts files appDir [((appDir.descend place).child name).resolve]
      (analysis.handlers.map (Segment.keys place, ·)) := by
  have hdots : ".." ∉ appDir.resolve.parts ++ (place ++ [name]) := fun hn =>
    (FileTree.isEntryName_iff.1 (FileTree.isEntryName_of_at? hw hat _ hn)).2.2.1 rfl
  have hpath : ((appDir.descend place).child name).resolve =
      appDir.resolve.descend (place ++ [name]) := by
    rw [← Path.resolve_descend fun hn => hdots (List.mem_append_right _ hn),
      ← Path.descend_descend]
    rfl
  have hfind : files.find? (appDir.resolve.descend (place ++ [name])) = some (.file content) := by
    have habs : (appDir.resolve.descend (place ++ [name])).isAbsolute = true :=
      Path.isAbsolute_resolve appDir
    exact (FileTree.find?_eq_at? habs hdots files).trans hat
  have hparent : (appDir.resolve.descend (place ++ [name])).parent =
      appDir.resolve.descend place := by
    simp [Path.parent, Path.descend, ← List.append_assoc]
  obtain ⟨analysis', hanalyze', hhandlers⟩ :=
    handlers_of_analyze hanalyze (some (appDir.resolve.descend place))
  have hanalyzed : analyzed? files (appDir.resolve.descend (place ++ [name])) =
      some analysis' := by
    rw [analyzed?, FileTree.content?, hfind, Option.bind_some, hdecode, Option.bind_some, hparent,
      hanalyze']
    rfl
  rw [hpath, ← hhandlers]
  refine ⟨fun path hp => ?_, ?_⟩
  · rw [List.mem_singleton.1 hp, hparent, Coordinator.below?_descend, hanalyzed]
    exact ⟨rfl, rfl⟩
  · rw [List.flatMap_singleton, fileRoutes, hparent, Coordinator.below?_descend, hanalyzed]

/-- A directory of which nothing is reported has exactly the handlers of its route file. -/
theorem accounts_of_analyzeFile {routeFile : String} {place : List String}
    {entries : List (String × FileTree)} {analysis : ModuleAnalysis} (hw : files.wellFormed = true)
    (hat : files.at? (appDir.resolve.parts ++ place) = some (.directory entries))
    (h : Build.analyzeFile (appDir.descend place) routeFile (entries.lookup routeFile) =
      .ok ⟨analysis, []⟩) :
    Accounts files appDir
      (if (entries.lookup routeFile).any FileTree.isFile then
        [((appDir.descend place).child routeFile).resolve] else [])
      (analysis.handlers.map (Segment.keys place, ·)) := by
  cases hl : entries.lookup routeFile with
  | none =>
      rw [hl] at h
      cases h
      exact Accounts.nil
  | some entry =>
      rw [hl] at h
      cases entry with
      | directory below =>
          cases h
          exact Accounts.nil
      | file content =>
          obtain ⟨source, hdecode, hanalyze⟩ := Build.analyze_of_quiet h
          refine accounts_singleton hw ?_ hdecode hanalyze
          rw [← List.append_assoc, FileTree.at?_append, hat]
          exact (FileTree.at?_singleton entries routeFile).trans hl

end

namespace Build

section

variable [Recovery] {routeFile : String} {directory : Path} {place : List String}

/-! ### Runs without notices -/

/-- The build of a directory gives the node, and nothing is reported. -/
def BuildsQuietly (routeFile : String) (directory : Path) (tree : FileTree) (node : RouteTree) :
    Prop :=
  ofTree routeFile directory tree = .ok ⟨node, []⟩

/-- Attaching the entries of a directory to a node gives the result, and nothing is reported. -/
def AttachesQuietly (routeFile : String) (directory : Path) (node : RouteTree)
    (entries : List (String × FileTree)) (result : RouteTree) : Prop :=
  attachAll routeFile directory ⟨node, []⟩ entries = .ok ⟨result, []⟩

theorem BuildsQuietly.builds {tree : FileTree} {node : RouteTree}
    (h : BuildsQuietly routeFile directory tree node) : Builds routeFile directory tree node :=
  ⟨[], h⟩

/-- Nothing has been reported before when nothing has been reported in the end. -/
theorem attachesQuietly_of_notices {node result : RouteTree} {notices : List Notice}
    {entries : List (String × FileTree)}
    (h : attachAll routeFile directory ⟨node, notices⟩ entries = .ok ⟨result, []⟩) :
    notices = [] ∧ AttachesQuietly routeFile directory node entries result := by
  rw [attachAll_notices] at h
  cases hr : attachAll routeFile directory ⟨node, []⟩ entries with
  | error cause =>
      rw [hr] at h
      cases h
  | ok noted =>
      rw [hr] at h
      obtain ⟨value, after⟩ := noted
      have heq := Except.ok.inj h
      obtain ⟨hnotices, hafter⟩ := List.append_eq_nil_iff.1 (congrArg Noted.notices heq)
      have hvalue : value = result := congrArg Noted.value heq
      dsimp only at hafter
      subst hafter hvalue
      exact ⟨hnotices, hr⟩

theorem attachesQuietly_cons {node result : RouteTree} {name : String} {entry : FileTree}
    {rest : List (String × FileTree)} (ht : isTaken name entry = true)
    (h : AttachesQuietly routeFile directory node ((name, entry) :: rest) result) :
    ∃ subtree, BuildsQuietly routeFile (directory.child name) entry subtree ∧
      (attach name subtree node).notices = [] ∧
      AttachesQuietly routeFile directory (attach name subtree node).value rest result := by
  rw [AttachesQuietly, attachAll_cons_of_taken ht] at h
  cases hb : ofTree routeFile (directory.child name) entry with
  | error cause =>
      rw [hb] at h
      cases h
  | ok noted =>
      rw [hb] at h
      obtain ⟨subtree, notices⟩ := noted
      obtain ⟨hnotices, hrest⟩ := attachesQuietly_of_notices h
      have hboth : notices ++ (attach name subtree node).notices = [] := hnotices
      obtain ⟨hsubtree, hattach⟩ := List.append_eq_nil_iff.1 hboth
      subst hsubtree
      exact ⟨subtree, hb, hattach, hrest⟩

theorem attachesQuietly_directory {entries : List (String × FileTree)} {node : RouteTree}
    (h : BuildsQuietly routeFile directory (.directory entries) node) :
    ∃ analysis, analyzeFile directory routeFile (entries.lookup routeFile) = .ok ⟨analysis, []⟩ ∧
      AttachesQuietly routeFile directory (bareNode directory analysis) entries node := by
  rw [BuildsQuietly, ofTree_directory] at h
  cases ha : analyzeFile directory routeFile (entries.lookup routeFile) with
  | error cause =>
      rw [ha] at h
      cases h
  | ok noted =>
      rw [ha] at h
      obtain ⟨analysis, notices⟩ := noted
      obtain ⟨hnotices, hattaches⟩ := attachesQuietly_of_notices h
      subst hnotices
      exact ⟨analysis, rfl, hattaches⟩

omit [Recovery] in
/-- What is attached without notice brings its routes. -/
theorem perm_routesFrom_attach {name : String} {subtree node : RouteTree} (hne : name ≠ "")
    (hs : subtree.Ordered) (h : (attach name subtree node).notices = []) :
    ((attach name subtree node).value.routesFrom (Segment.keys place)).Perm
      (node.routesFrom (Segment.keys place) ++
        subtree.routesFrom (Segment.keys (place ++ [name]))) := by
  rw [Segment.keys_append]
  by_cases ht : Segment.isTransparentName name = true
  · rw [attach_of_transparent ht] at h ⊢
    rw [Segment.keys_cons_of_transparent hne ht, Segment.keys_nil, List.append_nil]
    exact RouteTree.perm_routesFrom_merge _ hs h
  · rw [Bool.not_eq_true] at ht
    rw [attach_of_shown ht] at h ⊢
    rw [Segment.keys_cons_of_shown hne ht, Segment.keys_nil]
    exact RouteTree.perm_routesFrom_addChild _ h

/-! ### Builds and scans -/

omit [Recovery] in
/-- A scan goes through an entry that a build takes; what a build leaves out is ignored by the scan as
well, or has no route files. -/
theorem scanEntries_cons [Host] (name : String) (entry : FileTree) (rest : List (String × FileTree)) :
    RouteFiles.scanEntries routeFile directory ((name, entry) :: rest) =
      (if isTaken name entry then RouteFiles.scanTree routeFile (directory.child name) entry else []) ++
        RouteFiles.scanEntries routeFile directory rest := by
  rw [RouteFiles.scanEntries]
  cases entry with
  | file content => simp [isTaken, FileTree.isDirectory, RouteFiles.scanTree]
  | directory below =>
      cases hignored : RouteFiles.isIgnored name <;> simp [isTaken, FileTree.isDirectory, hignored]

/-- The entries of a directory bring the routes of the files that a scan of them lists. -/
theorem accounts_scanEntries [Host] {entries : List (String × FileTree)} {node result : RouteTree}
    {paths : List Path} (hnames : ∀ e ∈ entries, e.1 ≠ "")
    (hentries : ∀ e ∈ entries, ∀ subtree,
      BuildsQuietly routeFile (appDir.descend (place ++ [e.1])) e.2 subtree →
      Accounts files appDir (RouteFiles.scanTree routeFile (appDir.descend (place ++ [e.1])) e.2)
        (subtree.routesFrom (Segment.keys (place ++ [e.1]))))
    (h : AttachesQuietly routeFile (appDir.descend place) node entries result)
    (hnode : Accounts files appDir paths (node.routesFrom (Segment.keys place))) :
    Accounts files appDir
      (paths ++ RouteFiles.scanEntries routeFile (appDir.descend place) entries)
      (result.routesFrom (Segment.keys place)) := by
  induction entries generalizing node paths with
  | nil =>
      cases h
      rwa [RouteFiles.scanEntries, List.append_nil]
  | cons entry rest ih =>
      obtain ⟨name, entry⟩ := entry
      have hrest := fun e (he : e ∈ rest) => hentries e (List.mem_cons_of_mem _ he)
      have hrestnames := fun e (he : e ∈ rest) => hnames e (List.mem_cons_of_mem _ he)
      have hdescend : appDir.descend (place ++ [name]) = (appDir.descend place).child name := by
        rw [← Path.descend_descend, Path.descend_cons, Path.descend_nil]
      by_cases ht : isTaken name entry = true
      · obtain ⟨subtree, hs, hattach, h⟩ := attachesQuietly_cons ht h
        have hbrings := hentries _ List.mem_cons_self subtree (hdescend ▸ hs)
        have hnext := (hnode.append hbrings).of_perm (List.Perm.refl _)
          (perm_routesFrom_attach (hnames _ List.mem_cons_self) hs.builds.ordered hattach)
        rw [scanEntries_cons, if_pos ht, ← hdescend, ← List.append_assoc]
        exact ih hrestnames hrest h hnext
      · rw [scanEntries_cons, if_neg ht, List.nil_append]
        rw [Bool.not_eq_true] at ht
        rw [AttachesQuietly, attachAll_cons_of_not_taken ht] at h
        exact ih hrestnames hrest h hnode

/-- A build without notices has the routes of the files that a scan lists. -/
theorem accounts_scanTree [Host] (hw : files.wellFormed = true) : ∀ {tree : FileTree}
    {place : List String} {node : RouteTree},
    files.at? (appDir.resolve.parts ++ place) = some tree →
    BuildsQuietly routeFile (appDir.descend place) tree node →
    Accounts files appDir (RouteFiles.scanTree routeFile (appDir.descend place) tree)
      (node.routesFrom (Segment.keys place))
  | .file content, _, _, _, h => by
      rw [builds_file.1 h.builds]
      exact Accounts.nil
  | .directory entries, place, node, hat, h => by
      obtain ⟨analysis, ha, h⟩ := attachesQuietly_directory h
      have hdir := FileTree.wellFormed_at? hw hat
      have hall := (FileTree.wellFormed_directory.1 hdir).2
      have hfile := accounts_of_analyzeFile hw hat ha
      have hbare : (bareNode (appDir.descend place) analysis).routesFrom (Segment.keys place) =
          analysis.handlers.map (Segment.keys place, ·) := by
        rw [RouteTree.routesFrom_eq]
        exact List.append_nil _
      rw [RouteFiles.scanTree]
      refine accounts_scanEntries (fun e he => (FileTree.isEntryName_iff.1 (hall e he).1).1)
        (fun e he subtree hs => ?_) h (hbare ▸ hfile)
      refine accounts_scanTree hw ?_ hs
      rw [← List.append_assoc, FileTree.at?_append, hat]
      refine (FileTree.at?_singleton entries e.1).trans ?_
      exact (FileTree.wellFormed_directory.1 hdir).1.lookup_of_mem he
termination_by tree => sizeOf tree
decreasing_by
  have := List.sizeOf_lt_of_mem he
  obtain ⟨name, entry⟩ := e
  simp at this ⊢
  omega

/-- When nothing is reported, the routes of the tree are the handlers of the scanned files with the
visible key paths of their directories: none is lost, none is there twice, and none is made up. -/
theorem perm_routes_scan [Host] {tree : RouteTree} (hw : files.wellFormed = true)
    (h : routeTree files appDir routeFile = .ok ⟨tree, []⟩) :
    (∀ path ∈ RouteFiles.scan files appDir routeFile,
        (path.parent.below? appDir.resolve).isSome = true ∧ (analyzed? files path).isSome = true) ∧
      tree.routes.Perm
        ((RouteFiles.scan files appDir routeFile).flatMap (fileRoutes files appDir)) := by
  have haccounts : Accounts files appDir (RouteFiles.scan files appDir routeFile) tree.routes := by
    rw [routeTree_eq] at h
    rw [RouteFiles.scan]
    cases hfind : files.find? appDir with
    | none =>
        rw [hfind] at h
        cases h
        exact Accounts.nil
    | some root =>
        rw [hfind] at h
        have hat : files.at? (appDir.resolve.parts ++ []) = some root := by
          rw [List.append_nil]
          exact FileTree.at?_resolve_of_find? hfind
        have hquiet : BuildsQuietly routeFile (appDir.descend []) root tree := by
          rw [Path.descend_nil]
          exact h
        have hroot := accounts_scanTree hw hat hquiet
        rw [Path.descend_nil] at hroot
        exact hroot.of_perm (List.mergeSort_perm _ _) (List.Perm.refl _)
  exact ⟨haccounts.analyzed, haccounts.perm⟩

end

/-! ### A route in a group -/

/-- A route file in a directory that is in a group. -/
def groupedFiles : FileTree :=
  Coordinator.smallFiles
    [("(shop)", .directory [("users", .directory [("route.ts", Coordinator.smallRoute)])])]

attribute [local instance] Host.solitary Recovery.verbatim

set_option maxRecDepth 100000 in
theorem exists_routeTree_grouped : ∃ tree,
    routeTree groupedFiles Coordinator.smallConfig.appDir "route.ts" = .ok ⟨tree, []⟩ ∧
      tree.routes.map (·.1) = [["users"]] := by
  have h : passesQuietly groupedFiles Coordinator.smallConfig.appDir "route.ts"
      (·.routes.map (·.1) == [["users"]]) = true := by decide +kernel
  obtain ⟨tree, htree, hroutes⟩ := exists_routeTree_of_passesQuietly h
  exact ⟨tree, htree, beq_iff_eq.1 hroutes⟩

theorem perm_routes_scan_grouped : ∃ tree,
    routeTree groupedFiles Coordinator.smallConfig.appDir "route.ts" = .ok ⟨tree, []⟩ ∧
      tree.routes.map (·.1) = [["users"]] ∧
      (∀ path ∈ RouteFiles.scan groupedFiles Coordinator.smallConfig.appDir "route.ts",
        (path.parent.below? Coordinator.smallConfig.appDir.resolve).isSome = true ∧
          (analyzed? groupedFiles path).isSome = true) ∧
      tree.routes.Perm ((RouteFiles.scan groupedFiles Coordinator.smallConfig.appDir
        "route.ts").flatMap (fileRoutes groupedFiles Coordinator.smallConfig.appDir)) := by
  obtain ⟨tree, h, hroutes⟩ := exists_routeTree_grouped
  obtain ⟨hanalyzed, hperm⟩ := perm_routes_scan (by decide) h
  exact ⟨tree, h, hroutes, hanalyzed, hperm⟩

end Build

end RouteBinder.Project
