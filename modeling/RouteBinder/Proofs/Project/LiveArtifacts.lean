import RouteBinder.Proofs.FileSystem.CompletedWrites
import RouteBinder.Proofs.Project.IncrementalUpdate

/-!
# RouteBinder.Proofs.Project.LiveArtifacts

**The live tree, its version and the two files move together.** A `Running` coordinator starts, takes
over changes, and meets other files in between; the operating system may refuse any step of any write.

* A change that is not taken over leaves the live tree, the version and all files as they are.
* A change that is taken over makes the next version, and so does the start. Unless a file that could
  not be written is reported, the two files then hold the texts that are rendered from the live tree
  (`Generation.Holds`), whatever became of earlier writes.

Both files can only be written when their paths lead to different places: this is because their names
are bare (`Config.HasBareNames`), as `Config.load` makes sure.
-/

namespace RouteBinder.Project

open FileSystem Route Analysis Emit Body

/-! ### The two paths -/

/-- The names of both files are names without a directory. -/
def Config.HasBareNames (config : Config) : Prop :=
  Config.isBareName config.clientFile = true ∧ Config.isBareName config.serverFile = true

theorem Config.parts_of_isBareName {name : String} (h : Config.isBareName name = true) :
    (Path.ofString name).isAbsolute = false ∧
      ((Path.ofString name).parts = [] ∨ (Path.ofString name).parts = [name]) := by
  simp only [Config.isBareName, Bool.and_eq_true, Bool.not_eq_true', List.contains_eq_mem,
    decide_eq_false_iff_not] at h
  obtain ⟨⟨-, hslash⟩, -⟩ := h
  have hanchor : Path.anchorOf name.toList = .relative := by
    have htake : name.toList.takeWhile (· == '/') = [] := by
      cases hname : name.toList with
      | nil => rfl
      | cons c rest =>
          have hc : c ≠ '/' := by
            rintro rfl
            exact hslash (hname ▸ List.mem_cons_self)
          rw [List.takeWhile_cons_of_neg (by simpa using hc)]
    rw [Path.anchorOf, htake]
    rfl
  have hsplit : Text.splitOn '/' name.toList = [name.toList] := by
    rw [Text.splitOn_eq, List.splitOn_eq_singleton hslash]
  refine ⟨by rw [Path.isAbsolute, Path.ofString, hanchor]; rfl, ?_⟩
  rw [Path.ofString, Path.names, hsplit, List.map_singleton, String.ofList_toList,
    List.filter_singleton]
  cases Path.isIdle name with
  | true => exact Or.inl rfl
  | false => exact Or.inr rfl

/-- The file with a bare name is the directory of the files or stands in it. -/
theorem Config.artifactPath_cases (config : Config) {name : String}
    (h : Config.isBareName name = true) :
    config.artifactPath name = config.outDir ∨
      config.artifactPath name = config.outDir.child name := by
  obtain ⟨habs, hparts⟩ := Config.parts_of_isBareName h
  rw [artifactPath, Path.join, habs, if_neg Bool.false_ne_true]
  rcases hparts with hparts | hparts
  · left
    rw [hparts, List.append_nil]
  · right
    rw [hparts, Path.child]

/-- Different paths with bare names lead to different places, when something can be written there. -/
theorem Config.resolve_ne [Host] {config : Config} (h : config.HasBareNames)
    (hne : config.clientPath ≠ config.serverPath)
    (hclient : config.clientPath.resolve.parts =
      config.clientPath.parent.resolve.parts ++ [config.clientPath.name])
    (hserver : config.serverPath.resolve.parts =
      config.serverPath.parent.resolve.parts ++ [config.serverPath.name]) :
    config.clientPath.resolve.parts ≠ config.serverPath.resolve.parts := by
  have hchild : ∀ name, (config.outDir.child name).parent = config.outDir ∧
      (config.outDir.child name).name = name := by
    intro name
    simp [Path.child, Path.parent, Path.name]
  intro heq
  unfold Config.clientPath Config.serverPath at *
  rcases config.artifactPath_cases h.1 with hc | hc <;>
    rcases config.artifactPath_cases h.2 with hs | hs <;> rw [hc, hs] at heq hne <;>
    rw [hc] at hclient <;> rw [hs] at hserver
  · exact hne rfl
  -- One path is that of the directory which the other one stands in.
  · rw [(hchild _).1, (hchild _).2] at hserver
    have hlength := congrArg List.length (heq.trans hserver)
    simp at hlength
  · rw [(hchild _).1, (hchild _).2] at hclient
    have hlength := congrArg List.length (heq.symm.trans hclient)
    simp at hlength
  · rw [(hchild _).1, (hchild _).2] at hclient hserver
    rw [hclient, hserver, List.append_cancel_left_eq, List.singleton_inj] at heq
    exact hne (heq ▸ rfl)

theorem exists_of_bind_eq_ok {ε α β : Type} {first : Except ε α} {next : α → Except ε β} {value : β}
    (h : first >>= next = .ok value) : ∃ middle, first = .ok middle ∧ next middle = .ok value := by
  cases first with
  | error cause => cases h
  | ok middle => exact ⟨middle, rfl, h⟩

/-- When nothing is rejected, a setting for a bare name has one. -/
theorem Config.isBareName_of_rejected {given : Key → Option Setting} {key : Key} {fallback : String}
    (h : rejected given = []) (hkey : ∀ value, accepts key value = value.asText?.any isBareName)
    (hall : key ∈ Key.all) (hfallback : isBareName fallback = true) :
    isBareName (((given key).bind Setting.asText?).getD fallback) = true := by
  have hgiven := List.filter_eq_nil_iff.1 h key hall
  cases hvalue : given key with
  | none => exact hfallback
  | some value =>
      rw [hvalue, Option.any_some, hkey] at hgiven
      rw [Option.bind_some]
      cases htext : value.asText? with
      | none => exact hfallback
      | some text =>
          rw [htext] at hgiven
          simpa using hgiven

/-- A configuration is only loaded when nothing that is given is rejected. -/
theorem Config.exists_of_load [Host] {files : FileTree} {environment : Environment} {project : Path}
    {overrides : List (Key × Setting)} {config : Config}
    (h : Config.load files environment project overrides = .ok config) :
    ∃ given : Key → Option Setting, rejected given = [] ∧
      config.clientFile = ((given .clientFile).bind Setting.asText?).getD "client-sdk.ts" ∧
      config.serverFile = ((given .serverFile).bind Setting.asText?).getD "server-sdk.ts" ∧
      config.routeFile = ((given .routeFile).bind Setting.asText?).getD "route.ts" := by
  obtain ⟨expanded, -, h⟩ := exists_of_bind_eq_ok h
  obtain ⟨root, -, h⟩ := exists_of_bind_eq_ok h
  obtain ⟨fromEnvironment, -, h⟩ := exists_of_bind_eq_ok h
  obtain ⟨appDir, -, h⟩ := exists_of_bind_eq_ok h
  obtain ⟨outDir, -, h⟩ := exists_of_bind_eq_ok h
  obtain ⟨formatter, -, h⟩ := exists_of_bind_eq_ok h
  dsimp only at h
  split at h
  · rename_i hrejected
    cases h
    exact ⟨_, hrejected, rfl, rfl, rfl⟩
  · cases h

/-- Every configuration that is loaded has bare names. -/
theorem Config.hasBareNames_of_load [Host] {files : FileTree} {environment : Environment} {project : Path}
    {overrides : List (Key × Setting)} {config : Config}
    (h : Config.load files environment project overrides = .ok config) : config.HasBareNames := by
  obtain ⟨given, hrejected, hclient, hserver, -⟩ := exists_of_load h
  rw [HasBareNames, hclient, hserver]
  exact ⟨isBareName_of_rejected hrejected (fun _ => rfl) (by decide) (by decide),
    isBareName_of_rejected hrejected (fun _ => rfl) (by decide) (by decide)⟩

/-- So has its name of the files that hold handlers. -/
theorem Config.isBareName_routeFile_of_load [Host] {files : FileTree} {environment : Environment}
    {project : Path} {overrides : List (Key × Setting)} {config : Config}
    (h : Config.load files environment project overrides = .ok config) :
    isBareName config.routeFile = true := by
  obtain ⟨given, hrejected, -, -, hroute⟩ := exists_of_load h
  rw [hroute]
  exact isBareName_of_rejected hrejected (fun _ => rfl) (by decide) (by decide)

/-! ### What a build reports -/

/-- Some file could not be written. -/
def TellsFailure (notices : List Notice) : Prop := ∃ destination, .writeFailed destination ∈ notices

theorem TellsFailure.append {front back : List Notice} :
    TellsFailure (front ++ back) ↔ TellsFailure front ∨ TellsFailure back := by
  simp only [TellsFailure, List.mem_append, exists_or]

theorem not_tellsFailure_nil : ¬ TellsFailure [] := fun ⟨_, h⟩ => List.not_mem_nil h

namespace Build

variable [Recovery] {routeFile : String}

theorem not_tellsFailure_analyzeFile {directory : Path} {file : Option FileTree}
    {noted : Noted ModuleAnalysis} (h : analyzeFile directory routeFile file = .ok noted) :
    ¬ TellsFailure noted.notices := by
  rintro ⟨destination, hmem⟩
  rw [analyzeFile_eq] at h
  split at h
  · split at h
    · cases h
      simp at hmem
    · split at h <;> cases h <;> simp at hmem
  · cases h
    simp at hmem

omit [Recovery] in
theorem not_tellsFailure_attach (name : String) (subtree node : RouteTree) :
    ¬ TellsFailure (attach name subtree node).notices := by
  rintro ⟨destination, hmem⟩
  unfold attach at hmem
  dsimp only at hmem
  split at hmem
  · change _ ∈ (RouteTree.mergeHandlers node subtree).notices ++
      ((RouteTree.mergeChildren node subtree).notices ++ []) at hmem
    simp [RouteTree.mergeHandlers, RouteTree.mergeChildren] at hmem
  · unfold RouteTree.addChild at hmem
    split at hmem <;> simp at hmem

mutual
/-- A build writes nothing, so it reports no failure to write. -/
theorem not_tellsFailure_ofTree : ∀ (tree : FileTree) (directory : Path) {noted : Noted RouteTree},
    ofTree routeFile directory tree = .ok noted → ¬ TellsFailure noted.notices
  | .file content, directory, noted, h => by
      cases h
      exact not_tellsFailure_nil
  | .directory entries, directory, noted, h => by
      rw [ofTree_directory] at h
      obtain ⟨analysis, ha, h⟩ := exists_of_bind_eq_ok h
      exact not_tellsFailure_attachAll entries directory (not_tellsFailure_analyzeFile ha) h

theorem not_tellsFailure_attachAll : ∀ (entries : List (String × FileTree)) (directory : Path)
    {node noted : Noted RouteTree}, ¬ TellsFailure node.notices →
    attachAll routeFile directory node entries = .ok noted → ¬ TellsFailure noted.notices
  | [], directory, node, noted, hnode, h => by
      cases h
      exact hnode
  | (name, entry) :: rest, directory, node, noted, hnode, h => by
      by_cases htaken : isTaken name entry = true
      · rw [attachAll_cons_of_taken htaken] at h
        obtain ⟨subtree, hs, h⟩ := exists_of_bind_eq_ok h
        refine not_tellsFailure_attachAll rest directory ?_ h
        have hsubtree := not_tellsFailure_ofTree entry (directory.child name) hs
        have hattach := not_tellsFailure_attach name subtree.value node.value
        change ¬ TellsFailure (node.notices ++
          (subtree.notices ++ (attach name subtree.value node.value).notices))
        rw [TellsFailure.append, TellsFailure.append]
        tauto
      · rw [Bool.not_eq_true] at htaken
        rw [attachAll_cons_of_not_taken htaken] at h
        exact not_tellsFailure_attachAll rest directory hnode h
end

theorem not_tellsFailure_routeTree [Host] {files : FileTree} {directory : Path} {noted : Noted RouteTree}
    (h : routeTree files directory routeFile = .ok noted) : ¬ TellsFailure noted.notices := by
  rw [routeTree_eq] at h
  split at h
  · exact not_tellsFailure_ofTree _ _ h
  · cases h
    exact not_tellsFailure_nil

end Build

/-! ### Writing both files -/

namespace Generation

variable [Host] [Recovery] {run : Formatter.Runner} {config : Config}

/-- The two files hold the texts that are rendered from a tree. -/
def Holds (run : Formatter.Runner) (config : Config) (tree : RouteTree) (files : FileTree) : Prop :=
  ∃ client server notices,
    (artifacts run config tree).runOn ⟨files, []⟩ = (.ok (client, server), ⟨files, notices⟩) ∧
      files.content? config.clientPath = some client.text.toUTF8 ∧
      files.content? config.serverPath = some server.text.toUTF8

/-- Without a formatter, the files are emitted as they are rendered. -/
theorem runOn_artifacts_of_no_formatter (hformatter : config.formatter = []) (tree : RouteTree)
    (workspace : Workspace) :
    (artifacts run config tree).runOn workspace = (.ok (plainArtifacts config tree), workspace) := by
  have hformatted : ∀ artifact, formatted run config artifact = .ok ⟨artifact, []⟩ := by
    intro artifact
    rw [formatted, Formatter.format, hformatter]
    rfl
  rw [artifacts, Session.runOn_bind, hformatted, Session.runOn_take_ok]
  dsimp only
  rw [Session.runOn_bind, hformatted, Session.runOn_take_ok]
  simp [Session.runOn_pure]

/-- Only the contents of the two files count. -/
theorem Holds.congr {tree : RouteTree} {before after : FileTree}
    (hformatter : config.formatter = []) (h : Holds run config tree before)
    (hclient : after.content? config.clientPath = before.content? config.clientPath)
    (hserver : after.content? config.serverPath = before.content? config.serverPath) :
    Holds run config tree after := by
  obtain ⟨client, server, notices, hr, hc, hs⟩ := h
  rw [runOn_artifacts_of_no_formatter hformatter] at hr
  cases hr
  exact ⟨_, _, _, runOn_artifacts_of_no_formatter hformatter tree _, hclient.trans hc,
    hserver.trans hs⟩

/-- What has been reported plays no part in writing both files. They then hold their texts, or one of
them could not be written. -/
theorem holds_of_regenerate (hformatter : config.formatter = []) (hnames : config.HasBareNames)
    (hne : config.clientPath ≠ config.serverPath) (tree : RouteTree) (refused : Refusals)
    (files : FileTree) :
    ∃ result after,
      (∀ notices, (regenerate run config tree refused).runOn ⟨files, notices⟩ =
        (result, ⟨after, notices⟩)) ∧
      (result = .ok () ∧ Holds run config tree after ∨
        ∃ destination, result = .error (.writeFailed destination)) := by
  have hclient : (plainArtifacts config tree).1.path = config.clientPath := rfl
  have hserver : (plainArtifacts config tree).2.path = config.serverPath := rfl
  cases hartifacts : plainArtifacts config tree with
  | mk client server =>
      rw [hartifacts] at hclient hserver
      have hrun : ∀ notices, (regenerate run config tree refused).runOn ⟨files, notices⟩ =
          (writeArtifact client refused >>= fun _ => writeArtifact server refused).runOn
            ⟨files, notices⟩ := by
        intro notices
        rw [regenerate, Session.runOn_bind, runOn_artifacts_of_no_formatter hformatter, hartifacts]
      simp only [hrun, Session.runOn_bind, runOn_writeArtifact]
      by_cases hfirst : (AtomicWrite.write (refused client.path) client.path client.text.toUTF8
          files).2 = true
      · by_cases hsecond : (AtomicWrite.write (refused server.path) server.path
            server.text.toUTF8 (AtomicWrite.write (refused client.path) client.path
              client.text.toUTF8 files).1).2 = true
        · simp only [if_pos hfirst, if_pos hsecond]
          refine ⟨_, _, fun notices => rfl, Or.inl ⟨rfl, client, server, [], ?_, ?_, ?_⟩⟩
          · rw [runOn_artifacts_of_no_formatter hformatter, hartifacts]
          · rw [← hclient]
            -- The second write goes to another place, or it would not have been completed.
            refine AtomicWrite.content?_write_of_ne hsecond ?_
              (AtomicWrite.content?_write_self hfirst)
            rw [hclient, hserver]
            exact Config.resolve_ne hnames hne
              (hclient ▸ AtomicWrite.resolve_of_write hfirst)
              (hserver ▸ AtomicWrite.resolve_of_write hsecond)
          · rw [← hserver]
            exact AtomicWrite.content?_write_self hsecond
        · simp only [if_pos hfirst, if_neg hsecond]
          exact ⟨_, _, fun notices => rfl, Or.inr ⟨_, rfl⟩⟩
      · simp only [if_neg hfirst]
        exact ⟨_, _, fun notices => rfl, Or.inr ⟨_, rfl⟩⟩

end Generation

/-! ### Steps of a coordinator -/

namespace Coordinator

section

variable [Host] [Recovery] {run : Formatter.Runner} {config : Config} {live live' : LiveTree}
  {workspace after : Workspace} {change : Change} {file : Path} {refused : Generation.Refusals}

/-- Between two workspaces, a file that could not be written was reported. -/
def FailsToWrite (before after : Workspace) : Prop :=
  TellsFailure (after.notices.drop before.notices.length)

omit [Host] [Recovery] in
theorem failsToWrite_append {notices : List Notice}
    (h : after.notices = workspace.notices ++ notices) :
    FailsToWrite workspace after ↔ TellsFailure notices := by
  rw [FailsToWrite, h, List.drop_left]

/-- There is a next version of the live tree. Both files hold its texts, unless it was reported that one
could not be written; and that is only reported when it is so. -/
def TakesOver (run : Formatter.Runner) (config : Config) (refused : Generation.Refusals)
    (live : LiveTree) (workspace : Workspace) (live' : LiveTree) (after : Workspace) : Prop :=
  live'.version = live.version + 1 ∧
    ∃ tree, live'.tree = some tree ∧
      (¬ FailsToWrite workspace after → Generation.Holds run config tree after.files) ∧
      (FailsToWrite workspace after ↔ ∃ destination,
        ((Generation.regenerate run config tree refused).runOn ⟨workspace.files, []⟩).1 =
          .error (.writeFailed destination))

/-- Taking over a tree is writing its files, and reporting that one cannot be written. -/
theorem takesOver_of_regenerate (hformatter : config.formatter = [])
    (hnames : config.HasBareNames) (hne : config.clientPath ≠ config.serverPath)
    (run : Formatter.Runner) (refused : Generation.Refusals) (live : LiveTree)
    (workspace : Workspace) (tree : Noted RouteTree) (hquiet : ¬ TellsFailure tree.notices) :
    ∃ after, runOn (regenerate run config tree.value refused) ⟨some tree.value, live.version + 1⟩
        { workspace with notices := workspace.notices ++ tree.notices } =
          ((.ok (), ⟨some tree.value, live.version + 1⟩), after) ∧
      TakesOver run config refused live workspace ⟨some tree.value, live.version + 1⟩ after := by
  obtain ⟨result, files, hr, hresult⟩ :=
    Generation.holds_of_regenerate hformatter hnames hne tree.value refused
      workspace.files
  rw [regenerate, runOn_tryCatch, runOn_lift, hr]
  rcases hresult with ⟨rfl, hholds⟩ | ⟨destination, rfl⟩
  · have hsilent : ¬ FailsToWrite workspace ⟨files, workspace.notices ++ tree.notices⟩ := by
      rwa [failsToWrite_append rfl]
    refine ⟨_, rfl, rfl, tree.value, rfl, fun _ => hholds, ?_⟩
    rw [hr]
    refine ⟨fun h => absurd h hsilent, ?_⟩
    rintro ⟨_, h⟩
    cases h
  · have htold : FailsToWrite workspace
        ⟨files, workspace.notices ++ tree.notices ++ [.writeFailed destination]⟩ := by
      rw [failsToWrite_append (List.append_assoc _ _ _)]
      exact ⟨destination, List.mem_append_right _ (List.mem_singleton_self _)⟩
    refine ⟨_, rfl, rfl, tree.value, rfl, fun h => absurd htold h, ?_⟩
    rw [hr]
    exact ⟨fun _ => ⟨destination, rfl⟩, fun _ => htold⟩

/-- An update of the tree reports no failure to write. -/
theorem not_tellsFailure_updated {files : FileTree} {tree : Option RouteTree}
    {noted : Noted RouteTree} (h : updated config files tree change file = .ok noted) :
    ¬ TellsFailure noted.notices := by
  have hbuilt : ∀ {directory noted}, built config files directory = .ok noted →
      ¬ TellsFailure noted.notices := by
    intro directory noted hb
    rw [built] at hb
    cases hroutes : Build.routeTree files directory config.routeFile with
    | error cause =>
        rw [hroutes] at hb
        cases hb
    | ok built =>
        rw [hroutes] at hb
        cases hb
        exact Build.not_tellsFailure_routeTree hroutes
  have hplaced : ∀ {tree target} {subtree : Noted (Option RouteTree)} {noted},
      placed tree target subtree = .ok noted → noted.notices = subtree.notices := by
    intro tree target subtree noted hp
    rw [placed] at hp
    split at hp <;> cases hp
    rfl
  unfold updated at h
  split at h
  · cases h
  · exact hbuilt h
  · split at h
    · exact hbuilt h
    · split at h
      · rw [hplaced h]
        exact not_tellsFailure_nil
      · obtain ⟨subtree, hs, h⟩ := exists_of_bind_eq_ok h
        rw [hplaced h]
        exact hbuilt hs

/-- A change is taken over, or it leaves the live tree and all files as they are. -/
theorem takesOver_or_unchanged (hformatter : config.formatter = [])
    (hnames : config.HasBareNames) (hne : config.clientPath ≠ config.serverPath)
    (run : Formatter.Runner) (refused : Generation.Refusals) (change : Change) (file : Path)
    (live : LiveTree) (workspace : Workspace) :
    (∃ live' after, runOn (handleEvent run config change file refused) live workspace =
        ((.ok true, live'), after) ∧ TakesOver run config refused live workspace live' after) ∨
      ∃ result notices, runOn (handleEvent run config change file refused) live workspace =
        ((result, live), ⟨workspace.files, notices⟩) ∧ result ≠ .ok true := by
  by_cases hroute : RouteFiles.isRouteFile file config.appDir config.routeFile = true
  · cases h : updated config workspace.files live.tree change file with
    | ok tree =>
        left
        obtain ⟨after, hr, htakes⟩ := takesOver_of_regenerate hformatter hnames hne run refused
          live workspace tree (not_tellsFailure_updated h)
        refine ⟨_, after, ?_, htakes⟩
        rw [runOn_handleEvent_of_updated run live workspace hroute h refused, runOn_bind, hr]
        rfl
    | error cause =>
        right
        rw [handleEvent, if_pos hroute, runOn_bind, runOn_lift, Session.runOn_files]
        dsimp only
        rw [runOn_bind, runOn_get]
        dsimp only
        rw [h]
        cases cause with
        | noPlace cause notices => exact ⟨_, _, rfl, by simp⟩
        | outsideAppDirectory => exact ⟨_, _, rfl, by simp⟩
        | circularReturn cause => exact ⟨_, _, rfl, by simp⟩
  · right
    refine ⟨.ok false, workspace.notices, ?_, by simp⟩
    rw [handleEvent, if_neg hroute]
    rfl

/-- A start takes over the build of all routes, or it leaves everything as it is. -/
theorem takesOver_or_unstarted (hformatter : config.formatter = [])
    (hnames : config.HasBareNames) (hne : config.clientPath ≠ config.serverPath)
    (run : Formatter.Runner) (refused : Generation.Refusals) (live : LiveTree)
    (workspace : Workspace) :
    (∃ live' after, runOn (start run config refused) live workspace = ((.ok (), live'), after) ∧
        TakesOver run config refused live workspace live' after) ∨
      ∃ cause, runOn (start run config refused) live workspace =
        ((.error cause, live), workspace) := by
  by_cases hdir : workspace.files.isDirectoryAt config.appDir = true
  · cases hb : Build.routeTree workspace.files config.appDir config.routeFile with
    | ok tree =>
        left
        obtain ⟨after, hr, htakes⟩ := takesOver_of_regenerate hformatter hnames hne run refused
          live workspace tree (Build.not_tellsFailure_routeTree hb)
        exact ⟨_, after, (runOn_start_of_built run live workspace hdir hb refused).trans hr, htakes⟩
    | error cause =>
        right
        refine ⟨.circularReturn cause, ?_⟩
        rw [start, runOn_bind, runOn_lift, Generation.loadTree, Session.runOn_bind,
          Session.runOn_files]
        dsimp only
        rw [if_pos hdir, hb]
        rfl
  · right
    refine ⟨.config (.missingAppDirectory config.appDir), ?_⟩
    rw [start, runOn_bind, runOn_lift, Generation.loadTree, Session.runOn_bind, Session.runOn_files]
    dsimp only
    rw [if_neg hdir]
    rfl

/-! ### Runs of a coordinator -/

/-- What a coordinator and its workspace come to. In between its steps, files change in any way that
leaves the contents of the two written files alone. The proposition in front says that nothing went
wrong in writing the files since the last version was made. -/
inductive Running (run : Formatter.Runner) (config : Config) :
    Prop → LiveTree → Workspace → Prop where
  | initial (workspace : Workspace) : Running run config False {} workspace
  | edit {current : Prop} {live : LiveTree} {workspace : Workspace}
      (h : Running run config current live workspace) (files : FileTree)
      (hclient : files.content? config.clientPath = workspace.files.content? config.clientPath)
      (hserver : files.content? config.serverPath = workspace.files.content? config.serverPath) :
      Running run config current live { workspace with files }
  | start {current : Prop} {live live' : LiveTree} {workspace after : Workspace}
      {result : Except SessionError Unit} (h : Running run config current live workspace)
      (refused : Generation.Refusals)
      (hr : runOn (start run config refused) live workspace = ((result, live'), after)) :
      Running run config
        (match result with
          | .ok () => ¬ FailsToWrite workspace after
          | .error _ => current) live' after
  | event {current : Prop} {live live' : LiveTree} {workspace after : Workspace}
      {result : Except SessionError Bool} (h : Running run config current live workspace)
      (change : Change) (file : Path) (refused : Generation.Refusals)
      (hr : runOn (handleEvent run config change file refused) live workspace =
        ((result, live'), after)) :
      Running run config
        (match result with
          | .ok true => ¬ FailsToWrite workspace after
          | _ => current) live' after

/-- The files hold the texts of the live tree, unless something went wrong in writing them. -/
theorem Running.holds (hformatter : config.formatter = []) (hnames : config.HasBareNames)
    (hne : config.clientPath ≠ config.serverPath) {current : Prop}
    (h : Running run config current live workspace) (hcurrent : current) :
    ∃ tree, live.tree = some tree ∧ Generation.Holds run config tree workspace.files := by
  induction h with
  | initial workspace => exact hcurrent.elim
  | edit h files hclient hserver ih =>
      obtain ⟨tree, htree, hholds⟩ := ih hcurrent
      exact ⟨tree, htree, hholds.congr hformatter hclient hserver⟩
  | @start current live live' workspace after result h refused hr ih =>
      rcases takesOver_or_unstarted hformatter hnames hne run refused live workspace with
        ⟨live'', after', hr', -, tree, htree, hholds, -⟩ | ⟨cause, hr'⟩
      · rw [hr] at hr'
        cases hr'
        exact ⟨tree, htree, hholds hcurrent⟩
      · rw [hr] at hr'
        cases hr'
        exact ih hcurrent
  | @event current live live' workspace after result h change file refused hr ih =>
      rcases takesOver_or_unchanged hformatter hnames hne run refused change file live workspace with
        ⟨live'', after', hr', -, tree, htree, hholds, -⟩ | ⟨result', notices, hr', hresult⟩
      · rw [hr] at hr'
        cases hr'
        exact ⟨tree, htree, hholds hcurrent⟩
      · rw [hr] at hr'
        cases hr'
        have hsame : current := by
          split at hcurrent
          · exact absurd rfl hresult
          · exact hcurrent
        obtain ⟨tree, htree, hholds⟩ := ih hsame
        exact ⟨tree, htree, hholds.congr hformatter rfl rfl⟩

/-- In every run, a change that is not taken over leaves everything as it is, and a start or a change
that is taken over makes the next version, with files that hold its texts when they can be written. -/
theorem moves_together (hformatter : config.formatter = []) (hnames : config.HasBareNames)
    (hne : config.clientPath ≠ config.serverPath) {current : Prop}
    (h : Running run config current live workspace) :
    (current → ∃ tree, live.tree = some tree ∧
      Generation.Holds run config tree workspace.files) ∧
    (∀ refused live' after,
      runOn (start run config refused) live workspace = ((.ok (), live'), after) →
        TakesOver run config refused live workspace live' after) ∧
    ∀ change file refused live' after,
      (runOn (handleEvent run config change file refused) live workspace =
        ((.ok true, live'), after) → TakesOver run config refused live workspace live' after) ∧
      (runOn (handleEvent run config change file refused) live workspace =
        ((.ok false, live'), after) → live' = live ∧ after.files = workspace.files) := by
  refine ⟨h.holds hformatter hnames hne, ?_, ?_⟩
  · intro refused live' after hr
    rcases takesOver_or_unstarted hformatter hnames hne run refused live workspace with
      ⟨live'', after', hr', htakes⟩ | ⟨cause, hr'⟩
    · rw [hr] at hr'
      cases hr'
      exact htakes
    · rw [hr] at hr'
      cases hr'
  · intro change file refused live' after
    rcases takesOver_or_unchanged hformatter hnames hne run refused change file live workspace with
      ⟨live'', after', hr', htakes⟩ | ⟨result, notices, hr', hresult⟩
    · rw [hr']
      refine ⟨fun h => ?_, fun h => by cases h⟩
      cases h
      exact htakes
    · rw [hr']
      refine ⟨fun h => ?_, fun h => ?_⟩
      · cases h
        exact absurd rfl hresult
      · cases h
        exact ⟨rfl, rfl⟩

end

/-- A start on the small project at which no file can be put in its place. -/
def blockedStart [Recovery] [Host] : (Except SessionError Unit × LiveTree) × Workspace :=
  runOn (start (fun _ _ _ => .notStarted) smallConfig fun _ step => step == .replace) {}
    ⟨smallFiles [("users", .directory [("route.ts", smallRoute)])], []⟩

/-- The change after that, with nothing refused. -/
def repairingChange [Recovery] [Host] : (Except SessionError Bool × LiveTree) × Workspace :=
  runOn (handleEvent (fun _ _ _ => .notStarted) smallConfig .modified
    (.ofString "/work/routes/project/app/users/route.ts")) blockedStart.1.2 blockedStart.2

attribute [local instance] Host.solitary Recovery.verbatim

set_option maxRecDepth 1000000 in
theorem repairingChange_reports :
    (match repairingChange.1.1 with | .ok applied => applied | .error _ => false) = true ∧
      repairingChange.2.notices = blockedStart.2.notices := by
  decide +kernel

/-- After the start neither file is there; the change writes both for the second version. -/
theorem moves_together_repaired :
    smallConfig.formatter = [] ∧ smallConfig.HasBareNames ∧
      smallConfig.clientPath ≠ smallConfig.serverPath ∧
      ∃ tree, repairingChange.1.2.tree = some tree ∧
        repairingChange.1.2.version = blockedStart.1.2.version + 1 ∧
        Generation.Holds (fun _ _ _ => .notStarted) smallConfig tree repairingChange.2.files := by
  have hnames : smallConfig.HasBareNames := ⟨by decide, by decide⟩
  have hne : smallConfig.clientPath ≠ smallConfig.serverPath := by decide
  have hstart : runOn (start (fun _ _ _ => .notStarted) smallConfig fun _ step => step == .replace) {}
      ⟨smallFiles [("users", .directory [("route.ts", smallRoute)])], []⟩ =
        ((blockedStart.1.1, blockedStart.1.2), blockedStart.2) := rfl
  have hrun := Running.start (.initial _) _ hstart
  obtain ⟨happlied, hnotices⟩ := repairingChange_reports
  have hresult : repairingChange.1.1 = .ok true := by
    cases hr : repairingChange.1.1 with
    | error cause =>
        rw [hr] at happlied
        cases happlied
    | ok applied =>
        rw [hr] at happlied
        exact congrArg Except.ok happlied
  obtain ⟨-, -, hevents⟩ := moves_together rfl hnames hne hrun
  obtain ⟨hversion, tree, htree, hholds, -⟩ := (hevents .modified
    (.ofString "/work/routes/project/app/users/route.ts") Generation.noRefusals
    repairingChange.1.2 repairingChange.2).1 (by rw [← hresult]; rfl)
  refine ⟨rfl, hnames, hne, tree, htree, hversion, hholds ?_⟩
  rw [failsToWrite_append (hnotices.trans (List.append_nil _).symm)]
  exact not_tellsFailure_nil

end Coordinator

end RouteBinder.Project
