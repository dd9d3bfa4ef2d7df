import Mathlib.Logic.Relation
import RouteBinder.Project.Coordinator

/-!
# RouteBinder.Proofs.Project.Runs

**What work on a project leaves behind.** `Session.runOn` and `Coordinator.runOn` start some work and
give its result together with everything that it changed. There is one lemma for each way to put work
together, and on top of them one for each piece of work:

* `Generation.runOn_regenerate`: the two files are written, or reported, and nothing else is;
* `Coordinator.runOn_regenerate`: the live tree plays no part in that; and
* `Coordinator.runOn_handleEvent`: a change makes the next version when there is an updated tree.
-/

namespace RouteBinder.Project

open FileSystem Route Analysis Emit Body

/-! ### Sessions -/

namespace Session

variable {α β : Type}

theorem runOn_pure (value : α) (workspace : Workspace) :
    (pure value : Session α).runOn workspace = (.ok value, workspace) := rfl

theorem runOn_bind (session : Session α) (next : α → Session β) (workspace : Workspace) :
    (session >>= next).runOn workspace =
      match session.runOn workspace with
      | (.ok value, after) => (next value).runOn after
      | (.error error, after) => (.error error, after) := by
  unfold runOn
  rw [ExceptT.run_bind, StateT.run_bind]
  generalize (ExceptT.run session).run workspace = outcome
  obtain ⟨result, after⟩ := outcome
  cases result <;> rfl

theorem runOn_files (workspace : Workspace) :
    files.runOn workspace = (.ok workspace.files, workspace) := rfl

theorem runOn_setFiles (files : FileTree) (workspace : Workspace) :
    (setFiles files).runOn workspace = (.ok (), { workspace with files }) := rfl

theorem runOn_report (notices : List Notice) (workspace : Workspace) :
    (report notices).runOn workspace =
      (.ok (), { workspace with notices := workspace.notices ++ notices }) := rfl

theorem runOn_take_ok {ε : Type} (raise : ε → SessionError) (noted : Noted α)
    (workspace : Workspace) :
    (take raise (.ok noted)).runOn workspace =
      (.ok noted.value, { workspace with notices := workspace.notices ++ noted.notices }) := rfl

end Session

/-! ### Formatting -/

/-- Why an outcome leaves no text, if it leaves none. -/
def Formatter.Outcome.defect? : Formatter.Outcome → Option Formatter.Defect
  | .malformed => some .nullCharacter
  | .exited 0 output _ =>
    if (String.fromUTF8? output).isSome then none
    else some (.undecodableOutput output.toList)
  | _ => none

/-- A runner whose commands only succeed with text, and can be tried. -/
def Formatter.WritesText (run : Formatter.Runner) : Prop :=
  ∀ command input limit defect, (run command input limit).defect? ≠ some defect

theorem Formatter.Outcome.defect?_exited {status : Int} (h : status ≠ 0) (output errors : ByteArray) :
    (Formatter.Outcome.exited status output errors).defect? = none := by
  unfold defect?
  split
  · rename_i heq
    cases heq
  · rename_i heq
    cases heq
    exact absurd rfl h
  · rfl

/-- What an outcome comes down to: its defect, or a text and what is reported. -/
theorem Formatter.conclude_eq_error_iff {outcome : Formatter.Outcome} {file text : String}
    {limit : Nat} {defect : Formatter.Defect} :
    Formatter.conclude file text limit outcome = .error defect ↔ outcome.defect? = some defect := by
  cases outcome with
  | malformed => simp [conclude, Outcome.defect?]
  | notStarted => simp [conclude, Outcome.defect?]
  | timedOut => simp [conclude, Outcome.defect?]
  | exited status output errors =>
      by_cases hs : status = 0
      · subst hs
        rw [conclude, Outcome.defect?, beq_self_eq_true, if_pos rfl]
        cases String.fromUTF8? output <;> simp
      · rw [conclude, Outcome.defect?_exited hs, beq_eq_false_iff_ne.2 hs]
        simp

/-- A formatter that writes text always leaves a text. -/
theorem Formatter.WritesText.exists_format {run : Formatter.Runner} (h : Formatter.WritesText run)
    (command : List String) (limit : Nat) (path : Path) (text : String) :
    ∃ noted, Formatter.format run command limit path text = .ok noted := by
  rw [Formatter.format]
  split
  · exact ⟨_, rfl⟩
  · cases hc : Formatter.conclude path.name text limit
        (run (Formatter.withPath command path) text limit) with
    | ok noted => exact ⟨noted, rfl⟩
    | error defect => exact absurd (Formatter.conclude_eq_error_iff.1 hc) (h _ _ _ _)

/-! ### Writing both files -/

namespace Generation

variable {run : Formatter.Runner} {config : Config}

/-- One of the two files is written, or left as it was. -/
def WriteStep [Host] (config : Config) (before after : FileTree) : Prop :=
  ∃ destination content faults, (destination = config.clientPath ∨ destination = config.serverPath) ∧
    after = (AtomicWrite.write faults destination content before).1

/-- Files after any number of such writes. -/
def Written [Host] (config : Config) : FileTree → FileTree → Prop :=
  Relation.ReflTransGen (WriteStep config)

/-- How the work of writing the files may end. -/
inductive Ending (run : Formatter.Runner) : Except SessionError Unit → Prop where
  | done : Ending run (.ok ())
  | writeFailed (destination : Path) : Ending run (.error (.writeFailed destination))
  | notFormatted (cause : Formatter.Defect) (h : ¬ Formatter.WritesText run) :
      Ending run (.error (.notFormatted cause))

theorem path_of_formatted {artifact : Artifact} {noted : Noted Artifact}
    (h : formatted run config artifact = .ok noted) : noted.value.path = artifact.path := by
  rw [formatted] at h
  cases hf : Formatter.format run config.formatter Formatter.timeLimit artifact.path artifact.text
    with
  | error cause =>
      rw [hf] at h
      cases h
  | ok text =>
      rw [hf] at h
      cases h
      rfl

/-- Rendering changes no file. -/
theorem runOn_artifacts [Recovery] [Host] (run : Formatter.Runner) (config : Config) (tree : RouteTree)
    (workspace : Workspace) :
    ∃ result notices,
      (artifacts run config tree).runOn workspace = (result, ⟨workspace.files, notices⟩) ∧
        ((∃ client server, result = .ok (client, server) ∧ client.path = config.clientPath ∧
            server.path = config.serverPath) ∨
          ∃ cause, result = .error (.notFormatted cause) ∧ ¬ Formatter.WritesText run) := by
  have hdecodable : ∀ {artifact cause}, formatted run config artifact = .error cause →
      ¬ Formatter.WritesText run := by
    intro artifact cause hf hrun
    obtain ⟨noted, hn⟩ := hrun.exists_format config.formatter Formatter.timeLimit artifact.path
      artifact.text
    rw [formatted, hn] at hf
    cases hf
  rw [artifacts, Session.runOn_bind]
  cases hc : formatted run config (plainArtifacts config tree).1 with
  | error cause => exact ⟨_, _, rfl, Or.inr ⟨cause, rfl, hdecodable hc⟩⟩
  | ok client =>
      rw [Session.runOn_take_ok]
      simp only [Session.runOn_bind]
      cases hs : formatted run config (plainArtifacts config tree).2 with
      | error cause => exact ⟨_, _, rfl, Or.inr ⟨cause, rfl, hdecodable hs⟩⟩
      | ok server =>
          exact ⟨_, _, rfl, Or.inl ⟨client.value, server.value, rfl, path_of_formatted hc,
            path_of_formatted hs⟩⟩

/-- A file is written as far as its write goes. -/
theorem runOn_writeArtifact [Host] (artifact : Artifact) (refused : Refusals) (workspace : Workspace) :
    (writeArtifact artifact refused).runOn workspace =
      (if (AtomicWrite.write (refused artifact.path) artifact.path artifact.text.toUTF8
          workspace.files).2 then .ok () else .error (.writeFailed artifact.path),
        { workspace with files := (AtomicWrite.write (refused artifact.path) artifact.path
          artifact.text.toUTF8 workspace.files).1 }) := by
  rw [writeArtifact, Session.runOn_bind, Session.runOn_files]
  dsimp only
  rw [Session.runOn_bind, Session.runOn_setFiles]
  dsimp only
  cases (AtomicWrite.write (refused artifact.path) artifact.path artifact.text.toUTF8
    workspace.files).2 <;> rfl

/-- Both files are written, one after the other, and no other file is. -/
theorem runOn_regenerate [Recovery] [Host] (run : Formatter.Runner) (config : Config) (tree : RouteTree)
    (workspace : Workspace) (refused : Refusals := noRefusals) :
    ∃ result after, (regenerate run config tree refused).runOn workspace = (result, after) ∧
      Ending run result ∧ Written config workspace.files after.files := by
  obtain ⟨result, notices, hartifacts, hresult⟩ :=
    runOn_artifacts run config tree workspace
  rw [regenerate, Session.runOn_bind, hartifacts]
  rcases hresult with ⟨client, server, rfl, hclient, hserver⟩ | ⟨cause, rfl, hrun⟩
  · dsimp only
    rw [Session.runOn_bind, runOn_writeArtifact]
    have hfirst : WriteStep config workspace.files (AtomicWrite.write (refused client.path)
        client.path client.text.toUTF8 workspace.files).1 :=
      ⟨client.path, client.text.toUTF8, _, Or.inl hclient, rfl⟩
    by_cases hw : (AtomicWrite.write (refused client.path) client.path client.text.toUTF8
        workspace.files).2 = true
    · rw [if_pos hw]
      dsimp only
      rw [runOn_writeArtifact]
      refine ⟨_, _, rfl, ?_, (Relation.ReflTransGen.single hfirst).tail
        ⟨server.path, server.text.toUTF8, _, Or.inr hserver, rfl⟩⟩
      split
      · exact Ending.done
      · exact Ending.writeFailed _
    · rw [if_neg hw]
      exact ⟨_, _, rfl, Ending.writeFailed _, Relation.ReflTransGen.single hfirst⟩
  · exact ⟨_, _, rfl, Ending.notFormatted cause hrun, Relation.ReflTransGen.refl⟩

end Generation

/-! ### Coordinations -/

namespace Coordinator

variable {α β : Type}

/-- Some work with what is left behind: its result, the live tree, and the workspace. -/
def runOn (work : Coordination α) (live : LiveTree) (workspace : Workspace) :
    (Except SessionError α × LiveTree) × Workspace :=
  ((ExceptT.run work).run live).run workspace

theorem runOn_bind (work : Coordination α) (next : α → Coordination β) (live : LiveTree)
    (workspace : Workspace) :
    runOn (work >>= next) live workspace =
      match runOn work live workspace with
      | ((.ok value, live), after) => runOn (next value) live after
      | ((.error error, live), after) => ((.error error, live), after) := by
  unfold runOn
  rw [ExceptT.run_bind, StateT.run_bind, StateT.run_bind]
  generalize ((ExceptT.run work).run live).run workspace = outcome
  obtain ⟨⟨result, live'⟩, after⟩ := outcome
  cases result <;> rfl

theorem runOn_tryCatch (work : Coordination α) (handler : SessionError → Coordination α)
    (live : LiveTree) (workspace : Workspace) :
    runOn (tryCatch work handler) live workspace =
      match runOn work live workspace with
      | ((.ok value, live), after) => ((.ok value, live), after)
      | ((.error error, live), after) => runOn (handler error) live after := by
  unfold runOn
  rw [ExceptT.run_tryCatch, StateT.run_bind, StateT.run_bind]
  generalize ((ExceptT.run work).run live).run workspace = outcome
  obtain ⟨⟨result, live'⟩, after⟩ := outcome
  cases result <;> rfl

theorem runOn_lift (session : Session α) (live : LiveTree) (workspace : Workspace) :
    runOn (lift session) live workspace =
      (((session.runOn workspace).1, live), (session.runOn workspace).2) := rfl

theorem runOn_get (live : LiveTree) (workspace : Workspace) :
    runOn (get : Coordination LiveTree) live workspace = ((.ok live, live), workspace) := rfl

theorem runOn_replaceTree (tree : RouteTree) (live : LiveTree) (workspace : Workspace) :
    runOn (replaceTree tree) live workspace =
      ((.ok (), ⟨some tree, live.version + 1⟩), workspace) := rfl

variable [Host] [Recovery]

/-- Writing the files leaves the live tree alone, and a file that cannot be written is no error. -/
theorem runOn_regenerate (run : Formatter.Runner) (config : Config) (tree : RouteTree)
    (live : LiveTree) (workspace : Workspace)
    (refused : Generation.Refusals := Generation.noRefusals) :
    ∃ result after, runOn (regenerate run config tree refused) live workspace = ((result, live), after) ∧
      (Formatter.WritesText run → result = .ok ()) ∧
      Generation.Written config workspace.files after.files := by
  obtain ⟨result, after, hr, hending, hwritten⟩ :=
    Generation.runOn_regenerate run config tree workspace refused
  rw [regenerate, runOn_tryCatch, runOn_lift, hr]
  cases hending with
  | done => exact ⟨_, _, rfl, fun _ => rfl, hwritten⟩
  | writeFailed destination => exact ⟨_, _, rfl, fun _ => rfl, hwritten⟩
  | notFormatted cause h => exact ⟨_, _, rfl, fun hrun => absurd hrun h, hwritten⟩

/-- A change with an updated tree takes over the tree, before anything is written. -/
theorem runOn_handleEvent_of_updated (run : Formatter.Runner) {config : Config} {change : Change}
    {file : Path} (live : LiveTree) (workspace : Workspace) {tree : Noted RouteTree}
    (hroute : RouteFiles.isRouteFile file config.appDir config.routeFile = true)
    (h : updated config workspace.files live.tree change file = .ok tree)
    (refused : Generation.Refusals := Generation.noRefusals) :
    runOn (handleEvent run config change file refused) live workspace =
      runOn (regenerate run config tree.value refused >>= fun _ => pure true)
        ⟨some tree.value, live.version + 1⟩
        { workspace with notices := workspace.notices ++ tree.notices } := by
  rw [handleEvent, if_pos hroute, runOn_bind, runOn_lift, Session.runOn_files]
  dsimp only
  rw [runOn_bind, runOn_get]
  dsimp only
  rw [h]
  dsimp only
  rw [runOn_bind, runOn_lift, Session.runOn_report]
  dsimp only
  rw [runOn_bind, runOn_replaceTree]

/-- A change with an updated tree makes the next version of the live tree. -/
theorem runOn_handleEvent (run : Formatter.Runner) {config : Config} {change : Change} {file : Path}
    (live : LiveTree) (workspace : Workspace) {tree : Noted RouteTree}
    (hroute : RouteFiles.isRouteFile file config.appDir config.routeFile = true)
    (h : updated config workspace.files live.tree change file = .ok tree)
    (refused : Generation.Refusals := Generation.noRefusals) :
    ∃ result after, runOn (handleEvent run config change file refused) live workspace =
        ((result, ⟨some tree.value, live.version + 1⟩), after) ∧
      (Formatter.WritesText run → result = .ok true) ∧
      Generation.Written config workspace.files after.files := by
  obtain ⟨result, after, hr, hresult, hwritten⟩ := runOn_regenerate run config tree.value
    ⟨some tree.value, live.version + 1⟩
    { workspace with notices := workspace.notices ++ tree.notices } refused
  rw [runOn_handleEvent_of_updated run live workspace hroute h refused, runOn_bind, hr]
  cases result with
  | ok value => exact ⟨_, _, rfl, fun _ => rfl, hwritten⟩
  | error cause => exact ⟨_, _, rfl, fun hrun => (by cases hresult hrun), hwritten⟩

/-- A change whose place is not in the live tree is dropped, and reported. -/
theorem runOn_handleEvent_of_noPlace (run : Formatter.Runner) {config : Config} {change : Change}
    {file : Path} (live : LiveTree) (workspace : Workspace) {cause : NavigationError}
    {notices : List Notice}
    (hroute : RouteFiles.isRouteFile file config.appDir config.routeFile = true)
    (h : updated config workspace.files live.tree change file = .error (.noPlace cause notices))
    (refused : Generation.Refusals := Generation.noRefusals) :
    runOn (handleEvent run config change file refused) live workspace =
      ((.ok false, live), { workspace with
        notices := workspace.notices ++ (notices ++ [.droppedUpdate cause file]) }) := by
  rw [handleEvent, if_pos hroute, runOn_bind, runOn_lift, Session.runOn_files]
  dsimp only
  rw [runOn_bind, runOn_get]
  dsimp only
  rw [h]
  rfl

/-- Without an updated tree, a change leaves the live tree and the files as they are. -/
theorem runOn_handleEvent_of_error (run : Formatter.Runner) {config : Config} {change : Change}
    {file : Path} (live : LiveTree) (workspace : Workspace) {cause : UpdateError}
    (hroute : RouteFiles.isRouteFile file config.appDir config.routeFile = true)
    (h : updated config workspace.files live.tree change file = .error cause)
    (refused : Generation.Refusals := Generation.noRefusals) :
    ∃ result notices, runOn (handleEvent run config change file refused) live workspace =
      ((result, live), ⟨workspace.files, notices⟩) := by
  rw [handleEvent, if_pos hroute, runOn_bind, runOn_lift, Session.runOn_files]
  dsimp only
  rw [runOn_bind, runOn_get]
  dsimp only
  rw [h]
  cases cause with
  | noPlace cause notices => exact ⟨_, _, rfl⟩
  | outsideAppDirectory => exact ⟨_, _, rfl⟩
  | circularReturn cause => exact ⟨_, _, rfl⟩

/-- A change makes the next version from an updated tree, or leaves the live tree and the files as they
are. -/
theorem runOn_handleEvent_cases (run : Formatter.Runner) (config : Config) (change : Change)
    (file : Path) (live : LiveTree) (workspace : Workspace)
    (refused : Generation.Refusals := Generation.noRefusals) :
    (∃ result notices, runOn (handleEvent run config change file refused) live workspace =
        ((result, live), ⟨workspace.files, notices⟩)) ∨
      ∃ tree result after, RouteFiles.isRouteFile file config.appDir config.routeFile = true ∧
        updated config workspace.files live.tree change file = .ok tree ∧
        runOn (handleEvent run config change file refused) live workspace =
          ((result, ⟨some tree.value, live.version + 1⟩), after) ∧
        Generation.Written config workspace.files after.files := by
  by_cases hroute : RouteFiles.isRouteFile file config.appDir config.routeFile = true
  · cases h : updated config workspace.files live.tree change file with
    | ok tree =>
        obtain ⟨result, after, hr, -, hwritten⟩ := runOn_handleEvent run live workspace hroute h
          refused
        exact Or.inr ⟨tree, result, after, hroute, rfl, hr, hwritten⟩
    | error cause => exact Or.inl (runOn_handleEvent_of_error run live workspace hroute h refused)
  · left
    refine ⟨.ok false, workspace.notices, ?_⟩
    rw [handleEvent, if_neg hroute]
    rfl

/-- The start takes over a build of all routes, before anything is written. -/
theorem runOn_start_of_built (run : Formatter.Runner) {config : Config} (live : LiveTree)
    (workspace : Workspace) {tree : Noted RouteTree}
    (hdir : workspace.files.isDirectoryAt config.appDir = true)
    (hb : Build.routeTree workspace.files config.appDir config.routeFile = .ok tree)
    (refused : Generation.Refusals := Generation.noRefusals) :
    runOn (start run config refused) live workspace =
      runOn (regenerate run config tree.value refused) ⟨some tree.value, live.version + 1⟩
        { workspace with notices := workspace.notices ++ tree.notices } := by
  rw [start, runOn_bind, runOn_lift, Generation.loadTree, Session.runOn_bind, Session.runOn_files]
  dsimp only
  rw [if_pos hdir, hb]
  change runOn (replaceTree tree.value >>= fun _ => regenerate run config tree.value refused)
    live { workspace with notices := workspace.notices ++ tree.notices } = _
  rw [runOn_bind, runOn_replaceTree]

/-- The start makes the next version from a build of all routes. -/
theorem runOn_start (run : Formatter.Runner) {config : Config} (live : LiveTree)
    (workspace : Workspace) {tree : Noted RouteTree}
    (hdir : workspace.files.isDirectoryAt config.appDir = true)
    (hb : Build.routeTree workspace.files config.appDir config.routeFile = .ok tree)
    (refused : Generation.Refusals := Generation.noRefusals) :
    ∃ result after, runOn (start run config refused) live workspace =
        ((result, ⟨some tree.value, live.version + 1⟩), after) ∧
      Generation.Written config workspace.files after.files := by
  obtain ⟨result, after, hr, -, hwritten⟩ := runOn_regenerate run config tree.value
    ⟨some tree.value, live.version + 1⟩
    { workspace with notices := workspace.notices ++ tree.notices } refused
  exact ⟨result, after, (runOn_start_of_built run live workspace hdir hb refused).trans hr, hwritten⟩

/-- Without a build of all routes, the start leaves everything as it is. -/
theorem runOn_start_cases (run : Formatter.Runner) (config : Config) (live : LiveTree)
    (workspace : Workspace) (refused : Generation.Refusals := Generation.noRefusals) :
    (∃ result, runOn (start run config refused) live workspace = ((result, live), workspace)) ∨
      ∃ tree result after,
        Build.routeTree workspace.files config.appDir config.routeFile = .ok tree ∧
        runOn (start run config refused) live workspace =
          ((result, ⟨some tree.value, live.version + 1⟩), after) ∧
        Generation.Written config workspace.files after.files := by
  by_cases hdir : workspace.files.isDirectoryAt config.appDir = true
  · cases hb : Build.routeTree workspace.files config.appDir config.routeFile with
    | ok tree =>
        obtain ⟨result, after, hr, hwritten⟩ := runOn_start run live workspace hdir hb refused
        exact Or.inr ⟨tree, result, after, rfl, hr, hwritten⟩
    | error cause =>
        left
        refine ⟨.error (.circularReturn cause), ?_⟩
        rw [start, runOn_bind, runOn_lift, Generation.loadTree, Session.runOn_bind,
          Session.runOn_files]
        dsimp only
        rw [if_pos hdir, hb]
        rfl
  · left
    refine ⟨.error (.config (.missingAppDirectory config.appDir)), ?_⟩
    rw [start, runOn_bind, runOn_lift, Generation.loadTree, Session.runOn_bind,
      Session.runOn_files]
    dsimp only
    rw [if_neg hdir]
    rfl

end Coordinator

end RouteBinder.Project
