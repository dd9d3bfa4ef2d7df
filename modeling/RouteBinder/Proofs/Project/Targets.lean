import Mathlib.Data.List.DropRight
import RouteBinder.Project.Coordinator
import RouteBinder.Proofs.FileSystem.PathText
import RouteBinder.Proofs.FileSystem.Resolution
import RouteBinder.Proofs.Project.Locality

/-!
# RouteBinder.Proofs.Project.Targets

**Targets of changes.** The target of a change in a route file is a place below the directory of the
routes that has a node of its own, or that directory itself (`Coordinator.locate?_eq_some`). The tree
after the change is then a replacement at the keys of the place (`Coordinator.updated_eq_ok`), by what a
build makes of the place.

`FullBuild` is the build of the whole directory of the routes. Two full builds of files that agree
outside a place differ by the replacement at its keys (`FullBuild.replaceAt`).
-/

namespace RouteBinder.FileSystem.Path

/-- Names that lead down stay behind the resolved path. -/
theorem resolve_descend [Host] {directory : Path} {names : List String} (h : ".." ∉ names) :
    (directory.descend names).resolve = directory.resolve.descend names := by
  have hjoin : workingDirectory.join (directory.descend names) =
      (workingDirectory.join directory).descend names := by
    rw [join, join]
    change (if directory.isAbsolute then _ else _) = _
    split
    · rfl
    · exact congrArg (mk _) (List.append_assoc _ _ _).symm
  have hdown : ((workingDirectory.join directory).parts ++ names).foldl (walkBack true) [] =
      names.reverse ++ (workingDirectory.join directory).parts.foldl (walkBack true) [] := by
    rw [List.foldl_append, foldl_walkBack_of_not_mem h]
  have habs := isAbsolute_join_workingDirectory directory
  rw [resolve, resolve, hjoin, normalize, normalize]
  change mk _ (((workingDirectory.join directory).parts ++ names).foldl
    (walkBack (workingDirectory.join directory).isAbsolute) []).reverse = _
  rw [habs, hdown, List.reverse_append, List.reverse_reverse]
  rfl

end RouteBinder.FileSystem.Path

namespace RouteBinder.Project

open FileSystem Route Analysis Body

namespace Coordinator

variable {config : Config} {file : Path} {change : Change}

/-! ### Locating -/

theorem retained_eq (names : List String) :
    retained names = names.rdropWhile fun name => Segment.isTransparentName name := rfl

theorem endsShown_retained {names : List String} (h : retained names ≠ []) :
    Segment.EndsShown (retained names) := by
  refine ⟨(retained names).getLast h, List.getLast?_eq_some_getLast h, ?_⟩
  have hlast := List.rdropWhile_last_not Segment.isTransparentName names h
  exact Bool.not_eq_true _ ▸ hlast

/-- What is left out at the end of a place is left out below a directory that shows up. -/
theorem retained_append {place : List String} (h : Segment.EndsShown place) (rest : List String) :
    retained (place ++ rest) = place ++ retained rest := by
  obtain ⟨last, hlast, ht⟩ := h
  have hself : retained place = place := by
    rw [retained_eq, List.rdropWhile_eq_self_iff]
    intro hne
    rw [List.getLast?_eq_some_getLast hne, Option.some.injEq] at hlast
    rw [hlast, ht]
    exact Bool.false_ne_true
  have hreverse : (place.reverse.dropWhile fun name => Segment.isTransparentName name) =
      place.reverse := by
    have hreversed := congrArg List.reverse hself
    rwa [retained_eq, List.rdropWhile, List.reverse_reverse] at hreversed
  rw [retained_eq, retained_eq, List.rdropWhile, List.rdropWhile, List.reverse_append,
    List.dropWhile_append]
  split
  · rename_i hempty
    rw [List.isEmpty_iff.1 hempty, hreverse, List.reverse_nil, List.reverse_reverse,
      List.append_nil]
  · rw [List.reverse_append, List.reverse_reverse]

/-- A place that a change can have as its target. -/
structure IsTarget (place : List String) : Prop where
  noEmpty : "" ∉ place
  noDots : ".." ∉ place
  endsShown : place ≠ [] → Segment.EndsShown place
  notIgnored : ∀ name ∈ place, RouteFiles.isIgnored name = false

theorem isRouteFile_below [Host] {appDir : Path} {routeFile : String}
    (h : RouteFiles.isRouteFile file appDir routeFile = true) :
    ∃ names, file.resolve = appDir.resolve.descend names ∧
      ∀ name ∈ names.dropLast, RouteFiles.isIgnored name = false := by
  rw [RouteFiles.isRouteFile, Bool.and_eq_true] at h
  obtain ⟨-, h⟩ := h
  split at h
  · rename_i names hnames
    obtain ⟨hanchor, hparts⟩ := Path.below?_eq_some hnames
    refine ⟨names, ?_, fun name hn => ?_⟩
    · exact FileSystem.Path.mk.injEq _ _ _ _ ▸ ⟨hanchor, hparts⟩
    · rw [Bool.not_eq_true', List.any_eq_false] at h
      exact Bool.not_eq_true _ ▸ h name hn
  · cases h

/-- A route file is located at a place that may be a target. -/
theorem locate?_eq_some [Host] {text : String} {target : UpdateTarget}
    (hroute : RouteFiles.isRouteFile (.ofString text) config.appDir config.routeFile = true)
    (h : locate? config (.ofString text) = some target) :
    ∃ place, IsTarget place ∧ target = ⟨config.appDir.resolve.descend place, Segment.keys place⟩ := by
  rw [locate?, Option.map_eq_some_iff] at h
  obtain ⟨names, hnames, rfl⟩ := h
  obtain ⟨below, hresolve, hignored⟩ := isRouteFile_below hroute
  have hbelow : (Path.ofString text).resolve.parts = config.appDir.resolve.parts ++ below :=
    congrArg Path.parts hresolve
  have hparts : (Path.ofString text).resolve.parts.dropLast = config.appDir.resolve.parts ++ names :=
    (Path.below?_eq_some hnames).2
  have hmem : ∀ name ∈ names, name ∈ (Path.ofString text).resolve.parts := by
    intro name hn
    have hn' : name ∈ (Path.ofString text).resolve.parts.dropLast := by
      rw [hparts]
      exact List.mem_append_right _ hn
    exact List.dropLast_subset _ hn'
  -- The names in front of the file name are below the app directory.
  have hlast : names = below.dropLast := by
    rw [hbelow] at hparts
    by_cases hb : below = []
    · subst hb
      have hlength := congrArg List.length hparts
      simp at hlength
      rw [List.length_eq_zero_iff.1 (by omega : names.length = 0)]
      rfl
    · rw [List.dropLast_append_of_ne_nil hb] at hparts
      exact (List.append_cancel_left hparts).symm
  have hretained : ∀ name ∈ retained names, name ∈ names := by
    intro name hn
    rw [retained_eq] at hn
    exact (List.rdropWhile_prefix _ names).subset hn
  refine ⟨retained names, ⟨?_, ?_, endsShown_retained, ?_⟩, rfl⟩
  · exact fun hn => Path.empty_not_mem_resolve text (hmem _ (hretained _ hn))
  · exact fun hn => Path.dots_not_mem_resolve _ (hmem _ (hretained _ hn))
  · intro name hn
    exact hignored name (hlast ▸ hretained name hn)

/-- A path below the directory of the routes is its own resolution. -/
theorem resolve_descend [Host] (hresolved : config.appDir.resolve = config.appDir) {names : List String}
    (hdots : ".." ∉ names) :
    (config.appDir.descend names).resolve = config.appDir.descend names := by
  rw [Path.resolve_descend hdots, hresolved]

theorem below?_descend (directory : Path) (names : List String) :
    (directory.descend names).below? directory = some names := by
  have hprefix : directory.parts.isPrefixOf (directory.parts ++ names) = true :=
    List.isPrefixOf_iff_prefix.2 (List.prefix_append _ _)
  simp [Path.below?, Path.descend, hprefix]

/-- The path of a route file in a directory that is not ignored. -/
theorem isRouteFile_descend [Host] (hresolved : config.appDir.resolve = config.appDir)
    {names : List String} (hdots : ".." ∉ names ++ [config.routeFile])
    (hi : ∀ name ∈ names, RouteFiles.isIgnored name = false) :
    RouteFiles.isRouteFile (config.appDir.descend (names ++ [config.routeFile])) config.appDir
      config.routeFile = true := by
  have hname : (config.appDir.descend (names ++ [config.routeFile])).name = config.routeFile := by
    simp [Path.name, Path.descend, ← List.append_assoc]
  rw [RouteFiles.isRouteFile, hname, resolve_descend hresolved hdots, hresolved, below?_descend]
  simpa using hi

/-- The target of a change of a route file. -/
theorem locate?_descend [Host] (hresolved : config.appDir.resolve = config.appDir) {names : List String}
    (hdots : ".." ∉ names ++ [config.routeFile]) :
    locate? config (config.appDir.descend (names ++ [config.routeFile])) =
      some ⟨config.appDir.descend (retained names), Segment.keys (retained names)⟩ := by
  have hparent : (config.appDir.descend (names ++ [config.routeFile])).parent =
      config.appDir.descend names := by
    simp [Path.parent, Path.descend, ← List.append_assoc]
  rw [locate?, resolve_descend hresolved hdots, hparent, hresolved]
  dsimp only
  rw [below?_descend]
  rfl

/-- The text of the path of the route file in a directory below the directory of the routes. -/
def routeText (config : Config) (names : List String) : String :=
  (config.appDir.descend (names ++ [config.routeFile])).render

/-- All names in the path of a route file could be those of entries. -/
def HasRouteText (config : Config) (names : List String) : Prop :=
  (config.appDir.descend (names ++ [config.routeFile])).HasEntryNames

theorem HasRouteText.dots {names : List String} (h : HasRouteText config names) :
    ".." ∉ names ++ [config.routeFile] := fun hn =>
  (FileTree.isEntryName_iff.1 (h ".." (List.mem_append_right _ hn))).2.2.1 rfl

theorem isTarget_retained {place rest : List String}
    (htext : HasRouteText config (place ++ rest))
    (hi : ∀ name ∈ place ++ rest, RouteFiles.isIgnored name = false)
    (hends : Segment.EndsShown place) : IsTarget (place ++ retained rest) := by
  have hmem : ∀ name ∈ place ++ retained rest, name ∈ place ++ rest := by
    intro name hn
    rcases List.mem_append.1 hn with hn | hn
    · exact List.mem_append_left _ hn
    · rw [retained_eq] at hn
      exact List.mem_append_right _ ((List.rdropWhile_prefix _ rest).subset hn)
  have hentry : ∀ name ∈ place ++ retained rest, FileTree.isEntryName name = true := by
    intro name hn
    exact htext name (List.mem_append_right _ (List.mem_append_left _ (hmem name hn)))
  refine ⟨fun hn => ?_, fun hn => ?_, fun _ => ?_, fun name hn => hi name (hmem name hn)⟩
  · exact (FileTree.isEntryName_iff.1 (hentry _ hn)).1 rfl
  · exact (FileTree.isEntryName_iff.1 (hentry _ hn)).2.2.1 rfl
  · rw [← retained_append hends]
    refine endsShown_retained fun hnil => ?_
    rw [retained_append hends] at hnil
    exact hends.ne_nil (List.append_eq_nil_iff.1 hnil).1

theorem ofString_routeText [Host] (hresolved : config.appDir.resolve = config.appDir)
    {names : List String} (h : HasRouteText config names) :
    Path.ofString (routeText config names) =
      config.appDir.descend (names ++ [config.routeFile]) := by
  refine Path.ofString_render ?_ ?_ h
  · change config.appDir.isAbsolute = true
    rw [← hresolved]
    exact Path.isAbsolute_resolve _
  · simp [Path.descend]

/-! ### Building -/

/-- What is in the directory of the routes. A directory that is not there might as well be empty. -/
def routesIn (config : Config) (files : FileTree) : FileTree :=
  (files.at? config.appDir.parts).getD (.directory [])

/-- A build of all routes gives the tree. -/
def FullBuild [Host] [Recovery] (config : Config) (files : FileTree) (tree : RouteTree) : Prop :=
  ∃ notices, Build.routeTree files config.appDir config.routeFile = .ok ⟨tree, notices⟩

theorem find?_descend [Host] (hresolved : config.appDir.resolve = config.appDir) {place : List String}
    (hdots : ".." ∉ place) (files : FileTree) :
    files.find? (config.appDir.descend place) = files.at? (config.appDir.parts ++ place) := by
  have hplace := resolve_descend hresolved hdots
  refine FileTree.find?_eq_at? ?_ ?_ files
  · exact hplace ▸ Path.isAbsolute_resolve (config.appDir.descend place)
  · exact hplace ▸ Path.dots_not_mem_resolve (config.appDir.descend place)

theorem routesIn_eq {files : FileTree} {routes : List (String × FileTree)}
    (h : files.at? config.appDir.parts = some (.directory routes)) :
    routesIn config files = .directory routes := by
  rw [routesIn, h]
  rfl

theorem at?_routesIn (files : FileTree) {place : List String} (h : place ≠ []) :
    files.at? (config.appDir.parts ++ place) = (routesIn config files).at? place := by
  rw [FileTree.at?_append, routesIn]
  cases files.at? config.appDir.parts with
  | none => exact (FileTree.at?_empty h).symm
  | some tree => rfl

/-- Below the directory of the routes, a path leads where its names lead. -/
theorem find?_routesIn [Host] (hresolved : config.appDir.resolve = config.appDir) {place : List String}
    (hdots : ".." ∉ place) (h : place ≠ []) (files : FileTree) :
    files.find? (config.appDir.descend place) = (routesIn config files).at? place := by
  rw [find?_descend hresolved hdots, at?_routesIn files h]

theorem isDirectoryAt_descend [Host] (hresolved : config.appDir.resolve = config.appDir)
    {place : List String} (hdots : ".." ∉ place) (files : FileTree) :
    files.isDirectoryAt (config.appDir.descend place) = true ↔
      ∃ entries, files.at? (config.appDir.parts ++ place) = some (.directory entries) := by
  rw [FileTree.isDirectoryAt, find?_descend hresolved hdots, Option.any_eq_true]
  constructor
  · rintro ⟨entry, hat, hdir⟩
    cases entry with
    | file content => cases hdir
    | directory entries => exact ⟨entries, hat⟩
  · rintro ⟨entries, hat⟩
    exact ⟨_, hat, rfl⟩

theorem isDirectoryAt_routesIn [Host] (hresolved : config.appDir.resolve = config.appDir)
    {place : List String} (hdots : ".." ∉ place) (h : place ≠ []) (files : FileTree) :
    files.isDirectoryAt (config.appDir.descend place) = true ↔
      ∃ entries, (routesIn config files).at? place = some (.directory entries) := by
  rw [isDirectoryAt_descend hresolved hdots, at?_routesIn files h]

theorem wellFormed_routesIn {files : FileTree} (h : files.wellFormed = true) :
    (routesIn config files).wellFormed = true := by
  rw [routesIn]
  cases hat : files.at? config.appDir.parts with
  | none => decide
  | some entry => exact FileTree.wellFormed_at? h hat

theorem fullBuild_iff [Recovery] [Host] (hresolved : config.appDir.resolve = config.appDir)
    {files : FileTree} {tree : RouteTree} :
    FullBuild config files tree ↔
      Build.Builds config.routeFile config.appDir (routesIn config files) tree := by
  have hfind := find?_descend hresolved List.not_mem_nil files
  rw [Path.descend_nil, List.append_nil] at hfind
  rw [FullBuild, Build.Builds, Build.routeTree_eq, hfind, routesIn]
  cases files.at? config.appDir.parts with
  | none => rfl
  | some entry => rfl

/-- No other directory in the files has the keys of the place, or of a directory on the way to it; and
the directories on the way that show up are there. -/
abbrev Isolates (config : Config) (files : FileTree) (place : List String) : Prop :=
  Build.Isolates config.routeFile (routesIn config files) place

/-- What a build makes of the directory at a place: nothing when there is none. -/
abbrev NodeAt [Recovery] (config : Config) (files : FileTree) (place : List String)
    (new : Option RouteTree) : Prop :=
  Build.NodeAt config.routeFile config.appDir (routesIn config files) place new

/-- Directories above the place that show up are there, in the files themselves. -/
def AncestorsThere [Host] (config : Config) (files : FileTree) (place : List String) : Prop :=
  ∀ front back, place = front ++ back → back ≠ [] → Segment.EndsShown front →
    files.isDirectoryAt (config.appDir.descend front) = true

/-- The path of the place is not that of a route file, unless it holds no file. -/
def NoRouteFileAt [Host] (config : Config) (files : FileTree) (place : List String) : Prop :=
  place.getLast? = some config.routeFile → files.isFileAt (config.appDir.descend place) = false

/-- A place shares its keys with no other directory when all directories have keys of their own. -/
theorem isolates_of_injOn [Host] (hresolved : config.appDir.resolve = config.appDir) {files : FileTree}
    {place : List String} {directories : Set (List String)} (hplace : IsTarget place)
    (hw : files.wellFormed = true) (hway : AncestorsThere config files place)
    (hfile : NoRouteFileAt config files place) (hmem : place ∈ directories)
    (hshows : ∀ other, Build.Shows (routesIn config files) other → other ∈ directories)
    (hkeys : Set.InjOn Segment.keys directories) : Isolates config files place := by
  have hwaythere : Build.WayThere (routesIn config files) place := by
    intro front back heq hback hends
    have hdots : ".." ∉ front := fun hn => hplace.noDots (heq ▸ List.mem_append_left _ hn)
    exact (isDirectoryAt_routesIn hresolved hdots hends.ne_nil files).1 (hway front back heq hback hends)
  refine ⟨wellFormed_routesIn hw, ?_, hwaythere, ?_⟩
  -- A directory with the keys of one on the way is that one, since both are listed.
  · intro front back heq hends other hother hsame
    refine hkeys (hshows other hother) ?_ hsame
    by_cases hback : back = []
    · subst hback
      rw [List.append_nil] at heq
      exact heq ▸ hmem
    · refine hshows front ⟨hends, fun name hn => ?_, hwaythere front back heq hback hends⟩
      exact hplace.notIgnored name (heq ▸ List.mem_append_left _ hn)
  · intro hlast content hat
    have hne : place ≠ [] := by
      rintro rfl
      cases hlast
    have := hfile hlast
    rw [FileTree.isFileAt, find?_routesIn hresolved hplace.noDots hne, hat] at this
    cases this

theorem ancestorsThere_of_directory [Host] (hresolved : config.appDir.resolve = config.appDir)
    {files : FileTree} {place : List String} (hdots : ".." ∉ place)
    {entries : List (String × FileTree)}
    (hat : files.at? (config.appDir.parts ++ place) = some (.directory entries)) :
    AncestorsThere config files place := by
  intro front back heq _ _
  have hfront : ".." ∉ front := fun hn => hdots (heq ▸ List.mem_append_left _ hn)
  refine (isDirectoryAt_descend hresolved hfront files).2 (FileTree.at?_of_prefix hat ?_)
  exact (List.prefix_append_right_inj _).2 ⟨back, heq.symm⟩

/-- A directory that shows up shares its keys with no other one when no two directories do. -/
theorem isolates_of_directory [Host] (hresolved : config.appDir.resolve = config.appDir)
    {files : FileTree} {place : List String} (hplace : IsTarget place) (h : place ≠ [])
    (hw : files.wellFormed = true) {entries : List (String × FileTree)}
    (hat : files.at? (config.appDir.parts ++ place) = some (.directory entries))
    (hkeys : Set.InjOn Segment.keys {other | Build.Shows (routesIn config files) other}) :
    Isolates config files place := by
  have hshows : Build.Shows (routesIn config files) place :=
    ⟨hplace.endsShown h, hplace.notIgnored, entries, (at?_routesIn files h).symm.trans hat⟩
  refine isolates_of_injOn hresolved hplace hw
    (ancestorsThere_of_directory hresolved hplace.noDots hat) (fun _ => ?_) hshows (fun _ ho => ho)
    hkeys
  rw [FileTree.isFileAt, find?_descend hresolved hplace.noDots, hat]
  rfl

/-- Two full builds of files that agree outside a place differ by the node of the place. -/
theorem FullBuild.replaceAt [Recovery] [Host] (hresolved : config.appDir.resolve = config.appDir)
    {place : List String} (hplace : IsTarget place) (h : place ≠ []) {s t : FileTree}
    {old fresh : RouteTree} {new : Option RouteTree} (hold : FullBuild config s old)
    (hfresh : FullBuild config t fresh)
    (hagree : FileTree.AgreeOutside (config.appDir.parts ++ place) s t)
    (hs : Isolates config s place) (ht : Isolates config t place)
    (hnew : NodeAt config t place new) :
    old.replaceAt (Segment.keys place) new = .ok fresh :=
  Build.replaceWithin_of_agreeOutside hplace.noEmpty (hplace.endsShown h) hplace.notIgnored
    hagree.at?_append hs ht ((fullBuild_iff hresolved).1 hold) ((fullBuild_iff hresolved).1 hfresh)
    hnew

/-- When the analysis of all route files comes to an end, so does the build of every place. -/
theorem exists_nodeAt [Recovery] {files : FileTree} {place : List String} (hplace : IsTarget place)
    (hw : files.wellFormed = true)
    (h : Build.Analyzable config.routeFile config.appDir (routesIn config files)) :
    ∃ new, NodeAt config files place new := by
  by_cases hat : ∃ entries, (routesIn config files).at? place = some (.directory entries)
  · obtain ⟨entries, hat⟩ := hat
    obtain ⟨node, hn⟩ := Build.Analyzable.exists_builds
      (FileTree.wellFormed_at? (wellFormed_routesIn hw) hat) (h.of_at? hplace.notIgnored hat)
    exact ⟨some node, entries, hat, hn⟩
  · exact ⟨none, not_exists.1 hat⟩

/-- A directory has a node. -/
theorem exists_nodeAt_of_directory [Recovery] {files : FileTree} {place : List String}
    (hplace : IsTarget place) (hne : place ≠ []) (hw : files.wellFormed = true)
    (h : Build.Analyzable config.routeFile config.appDir (routesIn config files))
    {entries : List (String × FileTree)}
    (hat : files.at? (config.appDir.parts ++ place) = some (.directory entries)) :
    ∃ node, NodeAt config files place (some node) := by
  obtain ⟨new, hnew⟩ := exists_nodeAt hplace hw h
  cases new with
  | none => exact absurd ((at?_routesIn files hne).symm.trans hat) (hnew entries)
  | some node => exact ⟨node, hnew⟩

/-- Where there are no other route files than in some files that can be built, the analysis comes to an
end as well. The route files may have been moved. -/
theorem analyzable_of_files [Recovery] {s t : FileTree}
    (h : Build.Analyzable config.routeFile config.appDir (routesIn config t))
    (hfiles : ∀ place content, (∀ name ∈ place, RouteFiles.isIgnored name = false) →
      s.at? (config.appDir.parts ++ (place ++ [config.routeFile])) = some (.file content) →
      ∃ place', (∀ name ∈ place', RouteFiles.isIgnored name = false) ∧
        t.at? (config.appDir.parts ++ (place' ++ [config.routeFile])) = some (.file content)) :
    Build.Analyzable config.routeFile config.appDir (routesIn config s) := by
  intro place content hi hat
  rw [← at?_routesIn s (by simp)] at hat
  obtain ⟨place', hi', hat'⟩ := hfiles place content hi hat
  rw [at?_routesIn t (by simp)] at hat'
  exact Build.exists_analyzeFile_of (h place' content hi' hat')

theorem exists_fullBuild [Recovery] [Host] (hresolved : config.appDir.resolve = config.appDir)
    {files : FileTree} (hw : files.wellFormed = true)
    (h : Build.Analyzable config.routeFile config.appDir (routesIn config files)) :
    ∃ tree, FullBuild config files tree := by
  obtain ⟨tree, ht⟩ := Build.Analyzable.exists_builds (wellFormed_routesIn hw) h
  exact ⟨tree, (fullBuild_iff hresolved).2 ht⟩

/-! ### Updating -/

/-- A change that is located at the root leads to a full build. -/
theorem updated_of_root [Recovery] [Host] {files : FileTree} {fresh : RouteTree}
    (hresolved : config.appDir.resolve = config.appDir)
    (hloc : locate? config file = some ⟨config.appDir, []⟩) (hfresh : FullBuild config files fresh)
    (tree : RouteTree) :
    ∃ notices, updated config files (some tree) change file = .ok ⟨fresh, notices⟩ := by
  obtain ⟨notices, hfresh⟩ := hfresh
  refine ⟨notices, ?_⟩
  unfold updated
  rw [hloc, hresolved]
  change built config files config.appDir = _
  rw [built, hfresh]
  rfl

/-- A change that is located at a place is taken over by a replacement at its keys. -/
theorem updated_of_place [Recovery] [Host] {files : FileTree} {place : List String}
    {new : Option RouteTree}
    (hresolved : config.appDir.resolve = config.appDir) (hplace : IsTarget place) (h : place ≠ [])
    (hloc : locate? config file = some ⟨config.appDir.descend place, Segment.keys place⟩)
    (hnew : NodeAt config files place new) (hdeleted : new = none → change = .deleted)
    (tree : RouteTree) :
    ∃ notices, updated config files (some tree) change file =
      placed tree ⟨config.appDir.descend place, Segment.keys place⟩ ⟨new, notices⟩ := by
  have hkeys : (Segment.keys place).isEmpty = false := by
    rw [List.isEmpty_eq_false_iff]
    exact Segment.keys_ne_nil hplace.noEmpty (hplace.endsShown h)
  have hfind := find?_routesIn hresolved hplace.noDots h files
  unfold updated
  rw [hloc]
  cases new with
  | none =>
      obtain rfl := hdeleted rfl
      have hdir : files.isDirectoryAt (config.appDir.descend place) = false := by
        rw [← Bool.not_eq_true, isDirectoryAt_routesIn hresolved hplace.noDots h]
        rintro ⟨below, hat⟩
        exact hnew below hat
      refine ⟨[], ?_⟩
      simp only [hkeys, hdir]
      rfl
  | some node =>
      obtain ⟨below, hat, notices, hb⟩ := hnew
      have hdir : files.isDirectoryAt (config.appDir.descend place) = true := by
        rw [FileTree.isDirectoryAt, hfind, hat]
        rfl
      -- The directory is there, and it is built from what it holds now.
      have hbuilt : built config files (config.appDir.descend place) = .ok ⟨node, notices⟩ := by
        rw [built, Build.routeTree_eq, hfind, hat]
        change Except.mapError _ (Build.ofTree _ _ _) = _
        rw [hb]
        rfl
      refine ⟨notices, ?_⟩
      simp only [hkeys, hdir, hbuilt, Bool.not_true, Bool.and_false, Bool.false_eq_true, if_false]
      rfl

theorem placed_of_ok {tree fresh : RouteTree} {target : UpdateTarget}
    {subtree : Noted (Option RouteTree)} (h : tree.replaceAt target.keys subtree.value = .ok fresh) :
    placed tree target subtree = .ok ⟨fresh, subtree.notices⟩ := by
  rw [placed, h]

theorem placed_of_error {tree : RouteTree} {target : UpdateTarget} {cause : NavigationError}
    {subtree : Noted (Option RouteTree)}
    (h : tree.replaceAt target.keys subtree.value = .error cause) :
    placed tree target subtree = .error (.noPlace cause subtree.notices) := by
  rw [placed, h]

/-- Where all directories of routes are those of one name, nothing else shows. -/
theorem eq_of_shows {name : String} {entry : FileTree} {other : List String}
    (h : Build.Shows (.directory [(name, entry)]) other)
    (hfiles : ∀ e ∈ entry.entries, e.2.isFile = true) : other = [name] := by
  obtain ⟨hends, -, below, hat⟩ := h
  obtain ⟨first, rest, rfl⟩ := List.exists_cons_of_ne_nil hends.ne_nil
  rw [FileTree.at?_directory_cons, Keyed.lookup_cons] at hat
  split at hat
  · rename_i hfirst
    subst hfirst
    cases rest with
    | nil => rfl
    | cons second rest =>
        obtain ⟨last, hlast, hat⟩ := Option.bind_eq_some_iff.1 (show (entry.entries.lookup
          second).bind (FileTree.at? rest) = some (.directory below) from hat)
        have hfile := hfiles _ (Keyed.mem_of_lookup hlast)
        cases last with
        | directory below => cases hfile
        | file content =>
            cases rest with
            | nil => cases hat
            | cons third rest => cases hat
  · cases hat

theorem ancestorsThere_singleton [Host] (files : FileTree) (name : String) :
    AncestorsThere config files [name] := by
  intro front back heq hback hends
  obtain ⟨first, rest, rfl⟩ := List.exists_cons_of_ne_nil hends.ne_nil
  have hlength := congrArg List.length heq
  have hpos := List.length_pos_iff.2 hback
  simp only [List.length_cons, List.length_nil, List.cons_append, List.length_append] at hlength
  omega

theorem exists_builds_of_isOk [Recovery] {routeFile : String} {directory : Path} {tree : FileTree}
    (h : (Build.ofTree routeFile directory tree).toBool = true) :
    ∃ node, Build.Builds routeFile directory tree node := by
  cases hb : Build.ofTree routeFile directory tree with
  | error cause =>
      rw [hb] at h
      cases h
  | ok noted => exact ⟨noted.value, noted.notices, hb⟩

/-! ### A small project -/

attribute [local instance] Host.solitary Recovery.verbatim

/-- A project below the working directory. -/
def smallConfig : Config where
  projectRoot := Path.workingDirectory
  appDir := Path.workingDirectory.child "app"
  outDir := Path.workingDirectory.child "api"

/-- The files of a project with one directory of routes, and with the entries in it. -/
def smallFiles (routes : List (String × FileTree)) : FileTree :=
  .directory [("work", .directory [("routes", .directory [("project",
    .directory [("app", .directory routes)])])])]

/-- A route file with one handler. -/
def smallRoute : FileTree :=
  .file "export function GET() \x7b\n  return 1;\n\x7d\n".toUTF8

theorem routesIn_smallFiles (routes : List (String × FileTree)) :
    routesIn smallConfig (smallFiles routes) = .directory routes := rfl

theorem exists_fullBuild_of_isOk {routes : List (String × FileTree)}
    (h : (Build.ofTree "route.ts" smallConfig.appDir (.directory routes)).toBool = true) :
    ∃ tree, FullBuild smallConfig (smallFiles routes) tree := by
  obtain ⟨tree, ht⟩ := exists_builds_of_isOk h
  exact ⟨tree, (fullBuild_iff (by decide)).2 ht⟩

end Coordinator

end RouteBinder.Project
