import RouteBinder.Proofs.Project.SkippedFiles

/-!
# RouteBinder.Proofs.Project.HandedFiles

**The scan, the test of a path and the build agree on what a route file is.** They decide in three ways:
the test looks at the names of a path, the scan leaves out directories on its way down, and the build
only goes into some of the entries of a directory. For every file that is there, all three give the same
answer (`Build.isRouteFile_iff_scanned_iff_handed`).

The analysis is a parameter of a build, so it can write down what it is given (`Build.noting`). This
changes nothing in what is built, and what is written down is what the scan finds, in the same order
(`Build.exists_notes_treeFrom`).
-/

namespace RouteBinder.Project

open FileSystem Route Analysis Body

namespace Build

/-! ### What an analysis is given -/

/-- An analysis that writes down which files it is given. -/
def noting (analysis : FileAnalysis Id) : FileAnalysis (StateM (List Path)) := fun path content => do
  modify (· ++ [path])
  return analysis path content

/-- The run has the value, and writes the files down behind those that are written down already. -/
def Notes {α : Type} (run : StateM (List Path) α) (handed : List Path) (value : α) : Prop :=
  ∀ before, run.run before = (value, before ++ handed)

section

variable {α β : Type} {run : StateM (List Path) α} {handed : List Path} {value : α}

theorem notes_pure (value : α) : Notes (pure value) [] value := fun before => by
  rw [List.append_nil]
  rfl

theorem Notes.bind (h : Notes run handed value) {next : α → StateM (List Path) β}
    {handed' : List Path} {value' : β} (h' : Notes (next value) handed' value') :
    Notes (run >>= next) (handed ++ handed') value' := by
  intro before
  rw [StateT.run_bind, h before]
  exact (h' _).trans (by rw [List.append_assoc])

end

variable [Host] (analysis : FileAnalysis Id) (routeFile : String)

omit [Host] in
theorem notes_noting (path : Path) (content : ByteArray) :
    Notes (noting analysis path content) [path] (analysis path content) := fun _ => rfl

/-- A route file is handed over when it is a file. -/
theorem exists_notes_handOver (directory : Path) (present : Option FileTree) :
    ∃ handed, Notes (handOver (noting analysis) directory routeFile present) handed
        (handOver analysis directory routeFile present) ∧
      handed.map Path.resolve =
        if present.any FileTree.isFile then [(directory.child routeFile).resolve] else [] := by
  match present with
  | none => exact ⟨[], notes_pure _, rfl⟩
  | some (.directory entries) => exact ⟨[], notes_pure _, rfl⟩
  | some (.file content) => exact ⟨_, (notes_noting analysis _ content).bind (notes_pure _), rfl⟩

mutual
/-- What is written down in a build is what the scan finds, in the same order. -/
theorem exists_notes_treeFrom (directory : Path) : ∀ tree : FileTree,
    ∃ handed, Notes (treeFrom (noting analysis) routeFile directory tree) handed
        (treeFrom analysis routeFile directory tree) ∧
      handed.map Path.resolve = RouteFiles.scanTree routeFile directory tree
  | .file _ => ⟨[], notes_pure _, rfl⟩
  | .directory entries => by
      obtain ⟨file, hfile, hfilePaths⟩ :=
        exists_notes_handOver analysis routeFile directory (entries.lookup routeFile)
      obtain ⟨below, hbelow, hbelowPaths⟩ := exists_notes_subtreesFrom directory entries
      refine ⟨file ++ (below ++ []), hfile.bind (hbelow.bind (notes_pure _)), ?_⟩
      rw [List.append_nil, List.map_append, hfilePaths, hbelowPaths, RouteFiles.scanTree]

theorem exists_notes_subtreesFrom (directory : Path) : ∀ entries : List (String × FileTree),
    ∃ handed, Notes (subtreesFrom (noting analysis) routeFile directory entries) handed
        (subtreesFrom analysis routeFile directory entries) ∧
      handed.map Path.resolve = RouteFiles.scanEntries routeFile directory entries
  | [] => ⟨[], notes_pure _, rfl⟩
  | (name, entry) :: rest => by
      obtain ⟨others, hothers, hotherPaths⟩ := exists_notes_subtreesFrom directory rest
      rw [subtreesFrom, subtreesFrom, scanEntries_cons, ← hotherPaths]
      by_cases htaken : isTaken name entry = true
      · obtain ⟨first, hfirst, hfirstPaths⟩ :=
          exists_notes_treeFrom (directory.child name) entry
        rw [if_pos htaken, if_pos htaken, if_pos htaken]
        refine ⟨first ++ (others ++ []), hfirst.bind (hothers.bind (notes_pure _)), ?_⟩
        rw [List.append_nil, List.map_append, hfirstPaths]
      · rw [if_neg htaken, if_neg htaken, if_neg htaken]
        exact ⟨others, hothers, (List.nil_append _).symm⟩
end

/-- The paths that a build hands to an analysis, in order. -/
def handed (files : FileTree) (directory : Path) (routeFile : String) : List Path :=
  ((routeTreeFrom (noting analysis) files directory routeFile).run []).2

theorem exists_notes_routeTreeFrom (files : FileTree) (directory : Path) :
    ∃ handed, Notes (routeTreeFrom (noting analysis) files directory routeFile) handed
        (routeTreeFrom analysis files directory routeFile) ∧
      ∀ path, path ∈ RouteFiles.scan files directory routeFile ↔
        ∃ file ∈ handed, file.resolve = path := by
  rw [routeTreeFrom, routeTreeFrom, RouteFiles.scan]
  cases files.find? directory with
  | none => exact ⟨[], notes_pure _, fun path => by simp⟩
  | some tree =>
      obtain ⟨handed, hnotes, hpaths⟩ := exists_notes_treeFrom analysis routeFile directory tree
      refine ⟨handed, hnotes, fun path => ?_⟩
      dsimp only
      rw [List.mem_mergeSort, ← hpaths, List.mem_map]

/-- The scan of a directory lists what its build hands over. -/
theorem mem_scan_iff_handed (files : FileTree) (appDir path : Path) :
    path ∈ RouteFiles.scan files appDir routeFile ↔
      ∃ file ∈ handed analysis files appDir routeFile, file.resolve = path := by
  obtain ⟨paths, hnotes, hscan⟩ := exists_notes_routeTreeFrom analysis routeFile files appDir
  rw [hscan, handed, hnotes, List.nil_append]

/-- Writing the files down changes nothing in what is built. -/
theorem fst_routeTreeFrom_noting (files : FileTree) (appDir : Path) :
    ((routeTreeFrom (noting analysis) files appDir routeFile).run []).1 =
      routeTreeFrom analysis files appDir routeFile := by
  obtain ⟨paths, hnotes, -⟩ := exists_notes_routeTreeFrom analysis routeFile files appDir
  rw [hnotes]

end Build

/-! ### The test of a path -/

namespace RouteFiles

variable [Host] {files : FileTree} {appDir path : Path} {routeFile : String} {content : ByteArray}

/-- The paths without names are those of the root and of the working directory. -/
theorem parts_ne_nil_of_find?_file {entries : List (String × FileTree)}
    (hwork : files.isFileAt Path.workingDirectory = false)
    (happ : files.find? appDir = some (.directory entries))
    (hfile : files.find? path = some (.file content)) : path.parts ≠ [] := by
  intro hnil
  cases habs : path.isAbsolute with
  | true =>
      have hroot : files = .file content := by
        rw [FileTree.find?_eq_at? habs (by simp [hnil]), hnil] at hfile
        exact Option.some.inj hfile
      have hat := FileTree.at?_resolve_of_find? happ
      rw [hroot] at hat
      cases hplace : appDir.resolve.parts with
      | nil =>
          rw [hplace] at hat
          cases hat
      | cons name rest =>
          rw [hplace] at hat
          cases hat
  | false =>
      have hjoin : (Path.workingDirectory.join path).parts = Path.workingDirectory.parts := by
        rw [Path.join, habs, if_neg Bool.false_ne_true, hnil, List.append_nil]
      have hdirectory : files.find? Path.workingDirectory = some (.file content) := by
        rw [FileTree.find?, hjoin] at hfile
        exact hfile
      rw [FileTree.isFileAt, hdirectory] at hwork
      cases hwork

/-- A file that the test accepts is a route file at its place. -/
theorem site_of_isRouteFile {entries : List (String × FileTree)}
    (happ : files.find? appDir = some (.directory entries))
    (hfile : files.find? path = some (.file content)) (hname : path.resolve.name = path.name)
    (h : isRouteFile path appDir routeFile = true) :
    ∃ place, Site files appDir routeFile place content ∧
      path.resolve = appDir.resolve.descend (place ++ [routeFile]) := by
  obtain ⟨names, hresolve, hunignored⟩ := Coordinator.isRouteFile_below h
  have hat := FileTree.at?_resolve_of_find? hfile
  rw [hresolve] at hat
  -- The directory of the routes is itself no file.
  have hnames : names ≠ [] := by
    rintro rfl
    rw [Path.descend_nil, FileTree.at?_resolve_of_find? happ] at hat
    cases hat
  have hlast : names.getLast hnames = routeFile := by
    rw [isRouteFile, Bool.and_eq_true, beq_iff_eq, ← hname, hresolve, Path.name, Path.descend,
      List.getLast?_append_of_ne_nil _ hnames, List.getLast?_eq_some_getLast hnames] at h
    exact h.1
  have hsplit : names.dropLast ++ [routeFile] = names := by
    rw [← hlast, List.dropLast_append_getLast hnames]
  refine ⟨names.dropLast, ⟨hunignored, ?_⟩, ?_⟩
  · rw [hsplit]
    exact hat
  · rw [hsplit, hresolve]

/-- The test accepts the files that the scan lists, and no others. -/
theorem isRouteFile_iff_mem_scan {entries : List (String × FileTree)}
    (hw : files.wellFormed = true) (happ : files.find? appDir = some (.directory entries))
    (hfile : files.find? path = some (.file content)) (hname : path.resolve.name = path.name) :
    isRouteFile path appDir routeFile = true ↔ path.resolve ∈ scan files appDir routeFile := by
  rw [mem_scan hw happ]
  constructor
  · intro h
    obtain ⟨place, hsite, hresolve⟩ := site_of_isRouteFile happ hfile hname h
    exact ⟨place, content, hsite, hresolve.trans (hsite.resolve_filePath hw).symm⟩
  · rintro ⟨place, content, hsite, hpath⟩
    have hlast : (appDir.resolve.descend (place ++ [routeFile])).name = routeFile := by
      simp [Path.name, Path.descend, ← List.append_assoc]
    rw [isRouteFile, ← hname, hpath, hsite.resolve_filePath hw, Coordinator.below?_descend, hlast]
    simpa using hsite.unignored

end RouteFiles

namespace Build

/-- For every file that is there, in any spelling of its path: the test of its path accepts it exactly if
the scan of the directory of the routes lists it, and this is so exactly if the build of that directory
hands it to the analysis, whatever the analysis answers. Writing down what is handed over leaves the tree
of the routes as it is. -/
theorem isRouteFile_iff_scanned_iff_handed [Host] [Recovery] (analysis : FileAnalysis Id)
    {files : FileTree} {appDir path : Path} {routeFile : String}
    {entries : List (String × FileTree)} {content : ByteArray}
    (hw : files.wellFormed = true) (hwork : files.isFileAt Path.workingDirectory = false)
    (happ : files.find? appDir = some (.directory entries))
    (hfile : files.find? path = some (.file content)) :
    (RouteFiles.isRouteFile path appDir routeFile = true ↔
        path.resolve ∈ RouteFiles.scan files appDir routeFile) ∧
      (path.resolve ∈ RouteFiles.scan files appDir routeFile ↔
        ∃ file ∈ handed analysis files appDir routeFile, file.resolve = path.resolve) ∧
      ((routeTreeFrom (noting analyzeContent) files appDir routeFile).run []).1 =
        routeTree files appDir routeFile := by
  have hparts := RouteFiles.parts_ne_nil_of_find?_file hwork happ hfile
  have hname := FileTree.name_resolve_of_find?_file hfile hparts
  exact ⟨RouteFiles.isRouteFile_iff_mem_scan hw happ hfile hname,
    mem_scan_iff_handed analysis routeFile files appDir path.resolve,
    fst_routeTreeFrom_noting analyzeContent routeFile files appDir⟩

attribute [local instance] Host.solitary Recovery.verbatim

/-- The file of a route, in a spelling that goes through a private directory beside it. -/
def roundaboutPath : Path := .ofString "app/_lib/../users/route.ts"

/-- A route beside a private directory with a file of the same name. -/
def guardedFiles : FileTree :=
  Coordinator.smallFiles
    [("_lib", .directory [("route.ts", Coordinator.smallRoute)]),
      ("users", .directory [("route.ts", Coordinator.smallRoute)])]

theorem isRouteFile_iff_scanned_iff_handed_guarded :
    roundaboutPath.resolve ∈
        RouteFiles.scan guardedFiles Coordinator.smallConfig.appDir "route.ts" ∧
      ∃ file ∈ handed analyzeContent guardedFiles Coordinator.smallConfig.appDir "route.ts",
        file.resolve = roundaboutPath.resolve := by
  have hfile : guardedFiles.find? roundaboutPath = some Coordinator.smallRoute := by
    decide +kernel
  have hw : guardedFiles.wellFormed = true := by decide +kernel
  have hroute :
      RouteFiles.isRouteFile roundaboutPath Coordinator.smallConfig.appDir "route.ts" = true := by
    decide +kernel
  have h := @isRouteFile_iff_scanned_iff_handed _ _ analyzeContent guardedFiles
    Coordinator.smallConfig.appDir roundaboutPath "route.ts" _ _ hw rfl rfl hfile
  exact ⟨h.1.1 hroute, h.2.1.1 (h.1.1 hroute)⟩

end Build

end RouteBinder.Project
