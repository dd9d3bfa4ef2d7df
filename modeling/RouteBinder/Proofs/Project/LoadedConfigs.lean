import Mathlib.Data.List.DropRight
import RouteBinder.Proofs.Project.LiveArtifacts
import RouteBinder.Proofs.Text.ShellWords
import RouteBinder.Project.CommandLine

/-!
# RouteBinder.Proofs.Project.LoadedConfigs

**What comes of loading a configuration.** A configuration that is loaded has bare file names and absolute
directories. Values that no setting accepts are refused as such (`ConfigError.IsRefusal`). Some values are
never shown to their settings, though: directories are looked up and command lines are taken apart before
anything is validated, and what goes wrong there is raised as it is. The values for which that happens are
listed by `Config.Escapes` (`Config.load_escapes_iff`).
-/

namespace RouteBinder.Project

open FileSystem Text

/-! ### Refusals -/

/-- The error says that the configuration is a bad one. -/
def ConfigError.IsRefusal : ConfigError → Prop
  | .invalid _ | .missingAppDirectory _ => True
  | .unreadableCommand _ | .notAPath _ | .unknownHome | .nullCharacter => False

/-- Only refusals end the program as a misuse of it. -/
theorem CommandLine.statusOf_eq_misused_iff {cause : ConfigError} :
    statusOf cause = misused ↔ cause.IsRefusal := by
  cases cause <;> simp [statusOf, misused, failed, ConfigError.IsRefusal]

/-- The result is an error that is no refusal. -/
def Escaped {α : Type} (result : Except ConfigError α) : Prop :=
  ∃ cause, result = .error cause ∧ ¬ cause.IsRefusal

/-- The result is no refusal: a value, or an error that escapes. -/
def Unchecked {α : Type} (result : Except ConfigError α) : Prop :=
  ∀ cause, result = .error cause → ¬ cause.IsRefusal

section

variable {α β : Type} {result : Except ConfigError α} {next : α → Except ConfigError β}

theorem not_escaped_ok (value : α) : ¬ Escaped (.ok value) := nofun

theorem unchecked_ok (value : α) : Unchecked (.ok value) := nofun

theorem unchecked_error {cause : ConfigError} (h : ¬ cause.IsRefusal) :
    Unchecked (.error cause : Except ConfigError α) := by
  rintro _ ⟨⟩
  exact h

theorem escaped_error_iff {cause : ConfigError} :
    Escaped (.error cause : Except ConfigError α) ↔ ¬ cause.IsRefusal := by
  constructor
  · rintro ⟨other, heq, h⟩
    cases heq
    exact h
  · exact fun h => ⟨cause, rfl, h⟩

theorem escaped_bind_iff :
    Escaped (result >>= next) ↔
      Escaped result ∨ ∃ value, result = .ok value ∧ Escaped (next value) := by
  cases result with
  | error cause =>
      have hbind : (Except.error cause >>= next) = .error cause := rfl
      rw [hbind, escaped_error_iff, escaped_error_iff]
      exact ⟨Or.inl, fun h => h.resolve_right nofun⟩
  | ok value =>
      refine ⟨fun h => Or.inr ⟨value, rfl, h⟩, fun h => ?_⟩
      obtain ⟨other, heq, h⟩ := h.resolve_left (not_escaped_ok value)
      cases heq
      exact h

theorem Unchecked.bind (h : Unchecked result) (hnext : ∀ value, Unchecked (next value)) :
    Unchecked (result >>= next) := by
  cases result with
  | error cause => exact fun other heq => h other (by cases heq; rfl)
  | ok value => exact hnext value

/-- What escapes later on escapes altogether, when nothing is refused before. -/
theorem Unchecked.exists_ok (h : Unchecked result) (hescaped : ¬ Escaped (result >>= next)) :
    ¬ Escaped result ∧ ∃ value, result = .ok value ∧ ¬ Escaped (next value) := by
  rw [escaped_bind_iff, not_or] at hescaped
  cases result with
  | error cause => exact absurd ⟨cause, rfl, h cause rfl⟩ hescaped.1
  | ok value => exact ⟨not_escaped_ok value, value, rfl, fun hn => hescaped.2 ⟨value, rfl, hn⟩⟩

theorem escaped_map_iff {f : α → β} : Escaped (result.map f) ↔ Escaped result := by
  cases result with
  | error cause => exact escaped_error_iff.trans escaped_error_iff.symm
  | ok value => exact iff_of_false (not_escaped_ok _) (not_escaped_ok _)

theorem Unchecked.map {f : α → β} (h : Unchecked result) : Unchecked (result.map f) := by
  cases result with
  | error cause => exact unchecked_error (h cause rfl)
  | ok value => exact unchecked_ok _

theorem exists_of_map_eq_ok {f : α → β} {value : β} (h : result.map f = .ok value) :
    ∃ middle, result = .ok middle ∧ f middle = value := by
  cases result with
  | error cause => cases h
  | ok middle => exact ⟨middle, rfl, Except.ok.inj h⟩

/-- A list escapes when one of its members does, since nothing else goes wrong before. -/
theorem escaped_mapM_iff {f : α → Except ConfigError β} (hf : ∀ value, Unchecked (f value))
    (values : List α) : Escaped (values.mapM f) ↔ ∃ value ∈ values, Escaped (f value) := by
  induction values with
  | nil => exact iff_of_false (not_escaped_ok _) (by simp)
  | cons first rest ih =>
      rw [List.mapM_cons, escaped_bind_iff, List.exists_mem_cons_iff, ← ih]
      have hrest : ∀ value, Escaped (rest.mapM f >>= fun values => pure (value :: values)) ↔
          Escaped (rest.mapM f) := by
        intro value
        rw [escaped_bind_iff, or_iff_left]
        rintro ⟨values, -, h⟩
        exact not_escaped_ok _ h
      by_cases hfirst : Escaped (f first)
      · exact iff_of_true (Or.inl hfirst) (Or.inl hfirst)
      · rw [or_iff_right hfirst, or_iff_right hfirst]
        cases hvalue : f first with
        | error cause => exact absurd ⟨cause, hvalue, hf first cause hvalue⟩ hfirst
        | ok value =>
            constructor
            · rintro ⟨other, -, h⟩
              exact (hrest other).1 h
            · exact fun h => ⟨value, rfl, (hrest value).2 h⟩

theorem unchecked_mapM {f : α → Except ConfigError β} (hf : ∀ value, Unchecked (f value))
    (values : List α) : Unchecked (values.mapM f) := by
  induction values with
  | nil => exact unchecked_ok _
  | cons first rest ih =>
      rw [List.mapM_cons]
      exact (hf first).bind fun _ => ih.bind fun _ => unchecked_ok _

theorem optionMapM_some {f : α → Except ConfigError β} {value : α} :
    (some value).mapM f = (f value).map some := rfl

theorem unchecked_optionMapM {f : α → Except ConfigError β} (hf : ∀ value, Unchecked (f value))
    (given : Option α) : Unchecked (given.mapM f) := by
  cases given with
  | none => exact unchecked_ok _
  | some value =>
      rw [optionMapM_some]
      exact (hf value).map

theorem escaped_optionMapM_iff {f : α → Except ConfigError β} {given : Option α} :
    Escaped (given.mapM f) ↔ ∃ value ∈ given, Escaped (f value) := by
  cases given with
  | none => exact iff_of_false (not_escaped_ok _) (by simp)
  | some value =>
      rw [optionMapM_some, escaped_map_iff]
      simp

end

namespace Config

variable {files : FileTree} {environment : Environment} {project root path : Path}
  {overrides : List (Key × Setting)} {config : Config} {line : String} {value : Setting}

/-! ### Command lines -/

/-- The line neither switches the formatter off nor is whole. -/
def Unreadable (line : String) : Prop := isOff line = false ∧ ¬ ShellWords.Whole line.toList

theorem unchecked_commandOf (line : String) : Unchecked (commandOf line) := by
  rw [commandOf]
  split
  · exact unchecked_ok _
  · cases ShellWords.split line with
    | ok words => exact unchecked_ok _
    | error cause => exact unchecked_error id

theorem escaped_commandOf_iff : Escaped (commandOf line) ↔ Unreadable line := by
  rw [commandOf, Unreadable, ← ShellWords.exists_split_iff]
  cases isOff line with
  | true => exact iff_of_false (not_escaped_ok _) (by simp)
  | false =>
      cases ShellWords.split line with
      | ok words => exact iff_of_false (not_escaped_ok _) (by simp)
      | error cause =>
          refine iff_of_true (escaped_error_iff.2 id) ⟨rfl, ?_⟩
          simp

/-! ### Variables -/

theorem unchecked_ofVariable (key : Key) (text : String) : Unchecked (ofVariable key text) := by
  cases key with
  | formatter =>
      rw [ofVariable]
      exact (unchecked_commandOf text).map
  | _ =>
      rw [ofVariable]
      · exact unchecked_ok _
      all_goals nofun

theorem escaped_ofVariable_iff {key : Key} {text : String} :
    Escaped (ofVariable key text) ↔ key = .formatter ∧ Unreadable text := by
  cases key with
  | formatter =>
      rw [ofVariable, escaped_map_iff, escaped_commandOf_iff]
      exact (and_iff_right rfl).symm
  | _ => exact iff_of_false (not_escaped_ok _) (by simp)

theorem unchecked_ofEnvironment (environment : Environment) : Unchecked (ofEnvironment environment) :=
  unchecked_mapM (fun _ => (unchecked_ofVariable _ _).map) _

theorem escaped_ofEnvironment_iff :
    Escaped (ofEnvironment environment) ↔
      ∃ line, environment.lookup Key.formatter.environmentName = some line ∧ Unreadable line := by
  rw [ofEnvironment, escaped_mapM_iff fun _ => (unchecked_ofVariable _ _).map]
  simp only [escaped_map_iff, escaped_ofVariable_iff, List.mem_filterMap, Option.map_eq_some_iff]
  constructor
  · rintro ⟨_, ⟨key, -, text, htext, rfl⟩, rfl, hline⟩
    exact ⟨text, htext, hline⟩
  · rintro ⟨line, hlookup, hline⟩
    exact ⟨(.formatter, line), ⟨.formatter, by decide, line, hlookup, rfl⟩, rfl, hline⟩

/-- A setting that is read from variables has what its variable stands for. -/
theorem lookup_of_mapM {keys : List Key} {settings : List (Key × Setting)}
    (h : (keys.filterMap fun key => (environment.lookup key.environmentName).map (key, ·)).mapM
      (fun (key, text) => (ofVariable key text).map (key, ·)) = .ok settings) (key : Key) :
    (settings.lookup key = none ∧ (key ∈ keys → environment.lookup key.environmentName = none)) ∨
      ∃ text value, environment.lookup key.environmentName = some text ∧
        ofVariable key text = .ok value ∧ settings.lookup key = some value := by
  induction keys generalizing settings with
  | nil =>
      cases h
      exact Or.inl ⟨rfl, fun hkey => absurd hkey List.not_mem_nil⟩
  | cons first rest ih =>
      rw [List.filterMap_cons] at h
      cases hfirst : environment.lookup first.environmentName with
      | none =>
          rw [hfirst] at h
          rcases ih h with ⟨hlookup, hnone⟩ | hsome
          · refine Or.inl ⟨hlookup, fun hkey => ?_⟩
            rcases List.mem_cons.1 hkey with rfl | hkey
            · exact hfirst
            · exact hnone hkey
          · exact Or.inr hsome
      | some text =>
          rw [hfirst, Option.map_some] at h
          dsimp only at h
          rw [List.mapM_cons] at h
          obtain ⟨entry, hentry, h⟩ := exists_of_bind_eq_ok h
          obtain ⟨tail, htail, h⟩ := exists_of_bind_eq_ok h
          cases h
          obtain ⟨value, hvalue, rfl⟩ := exists_of_map_eq_ok hentry
          by_cases hkey : key = first
          · subst hkey
            exact Or.inr ⟨text, value, hfirst, hvalue, by rw [List.lookup_cons, beq_self_eq_true]⟩
          · rw [List.lookup_cons, beq_eq_false_iff_ne.2 hkey]
            rcases ih htail with ⟨hlookup, hnone⟩ | hsome
            · exact Or.inl ⟨hlookup, fun h => hnone ((List.mem_cons.1 h).resolve_left hkey)⟩
            · exact Or.inr hsome

theorem mem_all (key : Key) : key ∈ Key.all := by cases key <;> decide

theorem lookup_of_ofEnvironment {settings : List (Key × Setting)}
    (h : ofEnvironment environment = .ok settings) (key : Key) :
    (settings.lookup key = none ∧ environment.lookup key.environmentName = none) ∨
      ∃ text value, environment.lookup key.environmentName = some text ∧
        ofVariable key text = .ok value ∧ settings.lookup key = some value := by
  rcases lookup_of_mapM h key with ⟨hlookup, hnone⟩ | hsome
  · exact Or.inl ⟨hlookup, hnone (mem_all key)⟩
  · exact Or.inr hsome

/-- The value that is given for a directory: the explicit one, or else that of the variable. -/
def givenDirectory (environment : Environment) (overrides : List (Key × Setting)) (key : Key) :
    Option Setting :=
  overrides.lookup key <|> (environment.lookup key.environmentName).map .text

/-- Directories are given as texts by variables. -/
theorem given_directory {settings : List (Key × Setting)} {key : Key}
    (h : ofEnvironment environment = .ok settings) (hkey : key = .appDir ∨ key = .outDir) :
    (overrides.lookup key <|> settings.lookup key) = givenDirectory environment overrides key := by
  rw [givenDirectory]
  rcases lookup_of_ofEnvironment h key with ⟨hlookup, hnone⟩ | ⟨text, value, htext, hvalue, hlookup⟩
  · rw [hlookup, hnone, Option.map_none]
  · rw [hlookup, htext, Option.map_some]
    rcases hkey with rfl | rfl <;> rw [← Except.ok.inj hvalue]

/-- A variable gives the words of a command line, so only an explicit line is still to be taken apart. -/
theorem given_formatterLine_iff {settings : List (Key × Setting)}
    (h : ofEnvironment environment = .ok settings) :
    (overrides.lookup .formatter <|> settings.lookup .formatter) = some (.text line) ↔
      overrides.lookup .formatter = some (.text line) := by
  have hnot : settings.lookup .formatter ≠ some (.text line) := by
    rcases lookup_of_ofEnvironment h .formatter with ⟨hlookup, -⟩ | ⟨text, value, -, hvalue, hlookup⟩
    · rw [hlookup]
      nofun
    · rw [ofVariable] at hvalue
      obtain ⟨words, -, rfl⟩ := exists_of_map_eq_ok hvalue
      rw [hlookup]
      nofun
  cases overrides.lookup .formatter with
  | none => exact iff_of_false hnot nofun
  | some value => exact Iff.rfl

/-! ### Directories -/

section

variable [Host]

/-- The home directory of a user. Without a name, it is the user that the program runs for, who may have
set it by a variable. -/
inductive HasHome (environment : Environment) : String → String → Prop where
  | ofVariable {home : String} (h : environment.lookup "HOME" = some home) :
      HasHome environment "" home
  | own {home : String} (hunset : environment.lookup "HOME" = none) (h : Host.ownHome? = some home) :
      HasHome environment "" home
  | other {user home : String} (huser : user ≠ "") (h : Host.homeOf? user = some home) :
      HasHome environment user home

/-- The path begins with a tilde for a user who cannot be looked up, or has no home directory but one that
begins with a tilde itself. -/
def AsksForHome (environment : Environment) (path : Path) : Prop :=
  ∃ user rest, path = ⟨.relative, ("~" ++ user) :: rest⟩ ∧
    (hasNull user = true ∨ ∀ home, HasHome environment user home → home.toList.head? = some '~')

theorem homeOf?_eq_some_iff {user home : String} :
    homeOf? environment user = some home ↔ HasHome environment user home := by
  rw [homeOf?]
  by_cases huser : user = ""
  · subst huser
    rw [if_pos (by decide)]
    constructor
    · intro h
      cases hset : environment.lookup "HOME" with
      | none => exact .own hset (by rwa [hset] at h)
      | some given => exact .ofVariable (by rw [hset] at h ⊢; exact h)
    · rintro (h | ⟨hunset, h⟩ | ⟨huser, -⟩)
      · rw [h]
        rfl
      · rw [hunset, h]
        rfl
      · exact absurd rfl huser
  · rw [if_neg (by simpa using huser)]
    constructor
    · exact .other huser
    · rintro (h | ⟨hunset, h⟩ | ⟨-, h⟩)
      · exact absurd rfl huser
      · exact absurd rfl huser
      · exact h

omit [Host] in
theorem homePath?_eq_none_iff {home : String} :
    homePath? home = none ↔ home.toList.head? = some '~' := by
  obtain ⟨slashes, hsplit⟩ : dropEndWhile (· == '/') home.toList <+: home.toList :=
    List.rdropWhile_prefix _ _
  rw [homePath?]
  split
  · rename_i hnil
    refine iff_of_false nofun fun hhead => ?_
    have hslash := List.rdropWhile_eq_nil_iff.1 hnil '~' (List.mem_of_head? hhead)
    cases hslash
  · rename_i htilde
    rw [← hsplit, htilde]
    exact iff_of_true rfl rfl
  · rename_i hnil htilde
    refine iff_of_false nofun fun hhead => ?_
    rw [← hsplit, List.head?_append_of_ne_nil _ hnil] at hhead
    obtain ⟨rest, hrest⟩ := List.head?_eq_some_iff.1 hhead
    exact htilde rest hrest

theorem unchecked_expandHome (environment : Environment) (path : Path) :
    Unchecked (expandHome environment path) := by
  rw [expandHome]
  split
  · split
    · split
      · exact unchecked_error id
      · split
        · exact unchecked_ok _
        · exact unchecked_error id
    · exact unchecked_ok _
  · exact unchecked_ok _

theorem asksForHome_tilde_iff {user : String} {rest : List String} :
    AsksForHome environment ⟨.relative, ("~" ++ user) :: rest⟩ ↔
      hasNull user = true ∨ (homeOf? environment user).bind homePath? = none := by
  have hnone : (homeOf? environment user).bind homePath? = none ↔
      ∀ home, HasHome environment user home → home.toList.head? = some '~' := by
    simp only [← homeOf?_eq_some_iff, ← homePath?_eq_none_iff, Option.bind_eq_none_iff]
  rw [hnone, AsksForHome]
  constructor
  · rintro ⟨other, _, heq, h⟩
    obtain ⟨hname, -⟩ := List.cons_eq_cons.1 (FileSystem.Path.mk.inj heq).2
    rwa [(String.append_right_inj _).1 hname]
  · exact fun h => ⟨user, rest, rfl, h⟩

theorem escaped_expandHome_iff :
    Escaped (expandHome environment path) ↔ AsksForHome environment path := by
  obtain ⟨anchor, parts⟩ := path
  have hnot : (∀ user rest, anchor = .relative → parts ≠ ("~" ++ user) :: rest) →
      ¬ AsksForHome environment ⟨anchor, parts⟩ := by
    rintro h ⟨user, rest, heq, -⟩
    cases heq
    exact h user rest rfl rfl
  rw [expandHome]
  cases anchor with
  | root => exact iff_of_false (not_escaped_ok _) (hnot fun _ _ => nofun)
  | alternateRoot => exact iff_of_false (not_escaped_ok _) (hnot fun _ _ => nofun)
  | relative =>
      cases parts with
      | nil => exact iff_of_false (not_escaped_ok _) (hnot fun _ _ _ => nofun)
      | cons first rest =>
          dsimp only
          split
          · rename_i user htilde
            obtain rfl : first = "~" ++ String.ofList user := by
              rw [← String.toList_inj, htilde]
              simp
            have hnull : hasNull ("~" ++ String.ofList user) = hasNull (String.ofList user) := by
              simp [hasNull]
            rw [asksForHome_tilde_iff, hnull]
            split
            · rename_i h
              exact iff_of_true (escaped_error_iff.2 id) (Or.inl h)
            · rename_i h
              rw [or_iff_right h]
              split
              · rename_i hhome
                exact iff_of_false (not_escaped_ok _) (by simp [hhome])
              · rename_i hhome
                exact iff_of_true (escaped_error_iff.2 id) hhome
          · rename_i htilde
            refine iff_of_false (not_escaped_ok _) (hnot fun user _ _ heq => ?_)
            obtain ⟨rfl, -⟩ := List.cons_eq_cons.1 heq
            exact htilde user.toList (by simp)

theorem unchecked_resolved (path : Path) : Unchecked (resolved path) := by
  rw [resolved]
  split
  · exact unchecked_error id
  · exact unchecked_ok _

theorem eq_of_resolved (h : resolved path = .ok root) :
    root = path.resolve ∧ path.parts.any hasNull = false := by
  rw [resolved] at h
  split at h
  · cases h
  · rename_i hnull
    cases h
    exact ⟨rfl, Bool.eq_false_iff.2 hnull⟩

theorem isAbsolute_of_resolved (h : resolved path = .ok root) : root.isAbsolute = true := by
  rw [(eq_of_resolved h).1]
  exact Path.isAbsolute_resolve path

/-- What is resolved keeps its names, so they have no null characters. -/
theorem any_hasNull_of_resolved (h : resolved path = .ok root) : root.parts.any hasNull = false := by
  obtain ⟨rfl, hnull⟩ := eq_of_resolved h
  rw [List.any_eq_false] at hnull ⊢
  intro name hname
  rcases Path.mem_resolve hname with hworking | hpath
  · exact Bool.not_eq_true _ ▸ Path.hasNull_of_mem_workingDirectory hworking
  · exact hnull name hpath

theorem escaped_resolved_iff : Escaped (resolved path) ↔ path.parts.any hasNull = true := by
  rw [resolved]
  split
  · rename_i hnull
    exact iff_of_true (escaped_error_iff.2 id) hnull
  · rename_i hnull
    exact iff_of_false (not_escaped_ok _) hnull

/-- The value names no directory, or one that nobody can look up. -/
inductive Misleads (environment : Environment) : Setting → Prop where
  | notText {value : Setting} (h : value.asText? = none) : Misleads environment value
  | unknownHome {text : String} (h : AsksForHome environment (.ofString text)) :
      Misleads environment (.text text)
  | nullCharacter {text : String} {path : Path}
      (hpath : expandHome environment (.ofString text) = .ok path) (hrelative : path.isAbsolute = false)
      (hnull : path.parts.any hasNull = true) : Misleads environment (.text text)

theorem unchecked_directoryOf (value : Setting) : Unchecked (directoryOf environment root value) := by
  cases value with
  | text text =>
      rw [directoryOf]
      refine (unchecked_expandHome _ _).bind fun path => ?_
      split
      · exact unchecked_ok _
      · exact unchecked_resolved _
  | _ => exact unchecked_error id

/-- A value misleads whatever the project is called. -/
theorem escaped_directoryOf_iff (hroot : root.parts.any hasNull = false) :
    Escaped (directoryOf environment root value) ↔ Misleads environment value := by
  cases value with
  | text text =>
      have hnull : ∀ path : Path, path.isAbsolute = false →
          (root.join path).parts.any hasNull = path.parts.any hasNull := fun path hrelative => by
        rw [Path.join, if_neg (by rw [hrelative]; exact Bool.false_ne_true), List.any_append, hroot,
          Bool.false_or]
      rw [directoryOf, escaped_bind_iff, escaped_expandHome_iff]
      constructor
      · rintro (h | ⟨path, hpath, h⟩)
        · exact .unknownHome h
        · split at h
          · exact absurd h (not_escaped_ok _)
          · rename_i hrelative
            rw [Bool.not_eq_true] at hrelative
            rw [escaped_resolved_iff, hnull path hrelative] at h
            exact .nullCharacter hpath hrelative h
      · intro h
        cases h with
        | notText h => cases h
        | unknownHome h => exact Or.inl h
        | @nullCharacter _ path hpath hrelative h =>
            refine Or.inr ⟨path, hpath, ?_⟩
            rw [if_neg (by rw [hrelative]; exact Bool.false_ne_true), escaped_resolved_iff,
              hnull path hrelative]
            exact h
  | _ => exact iff_of_true (escaped_error_iff.2 id) (.notText rfl)

/-- A directory that is found is absolute. -/
theorem isAbsolute_of_directoryOf (h : directoryOf environment root value = .ok path) :
    path.isAbsolute = true := by
  cases value with
  | text text =>
      obtain ⟨expanded, -, h⟩ := exists_of_bind_eq_ok h
      split at h
      · rename_i habs
        cases h
        exact habs
      · exact isAbsolute_of_resolved h
  | _ => cases h

/-! ### Loading -/

theorem unchecked_formatterSetting (files : FileTree) (root : Path) (given : Option Setting) :
    Unchecked (formatterSetting files root given) := by
  rw [formatterSetting.eq_def]
  split
  · exact unchecked_ok _
  · exact (unchecked_commandOf _).map
  · exact unchecked_ok _

theorem escaped_formatterSetting_iff {given : Option Setting} :
    Escaped (formatterSetting files root given) ↔
      ∃ line, given = some (.text line) ∧ Unreadable line := by
  rw [formatterSetting.eq_def]
  split
  · exact iff_of_false (not_escaped_ok _) (by simp)
  · rw [escaped_map_iff, escaped_commandOf_iff]
    simp
  · rename_i value hvalue
    refine iff_of_false (not_escaped_ok _) ?_
    rintro ⟨line, heq, -⟩
    exact hvalue line (Option.some.inj heq)

/-- What goes wrong before the settings are asked whether they accept their values. -/
inductive Escapes (environment : Environment) (project : Path) (overrides : List (Key × Setting)) :
    Prop where
  | projectHome (h : AsksForHome environment project)
  | projectName {path : Path} (h : expandHome environment project = .ok path)
      (hnull : path.parts.any hasNull = true)
  | formatterVariable {line : String}
      (h : environment.lookup Key.formatter.environmentName = some line) (hline : Unreadable line)
  | directory {key : Key} {value : Setting} (hkey : key = .appDir ∨ key = .outDir)
      (h : givenDirectory environment overrides key = some value) (hvalue : Misleads environment value)
  | formatterLine {line : String} (h : overrides.lookup .formatter = some (.text line))
      (hline : Unreadable line)

/-- An error that is no refusal comes of one of these values, and each of them leads to one. -/
theorem load_escapes_iff :
    Escaped (load files environment project overrides) ↔ Escapes environment project overrides := by
  constructor
  · intro h
    rcases escaped_bind_iff.1 h with h | ⟨expanded, hexpanded, h⟩
    · exact .projectHome (escaped_expandHome_iff.1 h)
    rcases escaped_bind_iff.1 h with h | ⟨root, hroot, h⟩
    · exact .projectName hexpanded (escaped_resolved_iff.1 h)
    have hnull := any_hasNull_of_resolved hroot
    rcases escaped_bind_iff.1 h with h | ⟨settings, hsettings, h⟩
    · obtain ⟨line, hlookup, hline⟩ := escaped_ofEnvironment_iff.1 h
      exact .formatterVariable hlookup hline
    have hdirectory : ∀ key, key = .appDir ∨ key = .outDir →
        Escaped ((overrides.lookup key <|> settings.lookup key).mapM (directoryOf environment root)) →
        Escapes environment project overrides := by
      intro key hkey hescaped
      rw [given_directory hsettings hkey] at hescaped
      obtain ⟨value, hgiven, hvalue⟩ := escaped_optionMapM_iff.1 hescaped
      exact .directory hkey hgiven ((escaped_directoryOf_iff hnull).1 hvalue)
    rcases escaped_bind_iff.1 h with h | ⟨appDir, -, h⟩
    · exact hdirectory _ (Or.inl rfl) h
    rcases escaped_bind_iff.1 h with h | ⟨outDir, -, h⟩
    · exact hdirectory _ (Or.inr rfl) h
    rcases escaped_bind_iff.1 h with h | ⟨formatter, -, h⟩
    · obtain ⟨line, hgiven, hline⟩ := escaped_formatterSetting_iff.1 h
      exact .formatterLine ((given_formatterLine_iff hsettings).1 hgiven) hline
    dsimp only at h
    split at h
    · exact absurd h (not_escaped_ok _)
    · exact absurd trivial (escaped_error_iff.1 h)
  · intro h
    by_contra hescaped
    obtain ⟨hexpand, expanded, hexpanded, hescaped⟩ :=
      (unchecked_expandHome environment project).exists_ok hescaped
    obtain ⟨hresolve, root, hroot, hescaped⟩ := (unchecked_resolved expanded).exists_ok hescaped
    obtain ⟨henvironment, settings, hsettings, hescaped⟩ :=
      (unchecked_ofEnvironment environment).exists_ok hescaped
    have hnull := any_hasNull_of_resolved hroot
    obtain ⟨happ, appDir, -, hescaped⟩ :=
      (unchecked_optionMapM (fun _ => unchecked_directoryOf _) _).exists_ok hescaped
    obtain ⟨hout, outDir, -, hescaped⟩ :=
      (unchecked_optionMapM (fun _ => unchecked_directoryOf _) _).exists_ok hescaped
    obtain ⟨hformatter, -⟩ := (unchecked_formatterSetting files root _).exists_ok hescaped
    dsimp only at happ hout hformatter
    rw [given_directory hsettings (Or.inl rfl), escaped_optionMapM_iff] at happ
    rw [given_directory hsettings (Or.inr rfl), escaped_optionMapM_iff] at hout
    rw [escaped_formatterSetting_iff] at hformatter
    cases h with
    | projectHome h => exact hexpand (escaped_expandHome_iff.2 h)
    | projectName h hname =>
        rw [hexpanded] at h
        cases h
        exact hresolve (escaped_resolved_iff.2 hname)
    | formatterVariable h hline => exact henvironment (escaped_ofEnvironment_iff.2 ⟨_, h, hline⟩)
    | directory hkey h hvalue =>
        rw [← escaped_directoryOf_iff hnull] at hvalue
        rcases hkey with rfl | rfl
        · exact happ ⟨_, h, hvalue⟩
        · exact hout ⟨_, h, hvalue⟩
    | formatterLine h hline =>
        exact hformatter ⟨_, (given_formatterLine_iff hsettings).2 h, hline⟩

theorem isAbsolute_findAppDir (files : FileTree) (h : root.isAbsolute = true) :
    (findAppDir files root).isAbsolute = true := by
  rw [findAppDir]
  split <;> exact h

theorem isAbsolute_of_optionMapM {given : Option Setting} {found : Option Path} {fallback : Path}
    (h : given.mapM (directoryOf environment root) = .ok found) (hfallback : fallback.isAbsolute = true) :
    (found.getD fallback).isAbsolute = true := by
  cases given with
  | none =>
      cases h
      exact hfallback
  | some value =>
      rw [optionMapM_some] at h
      obtain ⟨path, hpath, rfl⟩ := exists_of_map_eq_ok h
      exact isAbsolute_of_directoryOf hpath

/-- The directories of a configuration that is loaded are absolute. -/
theorem isAbsolute_of_load (h : load files environment project overrides = .ok config) :
    config.projectRoot.isAbsolute = true ∧ config.appDir.isAbsolute = true ∧
      config.outDir.isAbsolute = true := by
  obtain ⟨expanded, -, h⟩ := exists_of_bind_eq_ok h
  obtain ⟨root, hroot, h⟩ := exists_of_bind_eq_ok h
  obtain ⟨settings, -, h⟩ := exists_of_bind_eq_ok h
  obtain ⟨appDir, happ, h⟩ := exists_of_bind_eq_ok h
  obtain ⟨outDir, hout, h⟩ := exists_of_bind_eq_ok h
  obtain ⟨formatter, -, h⟩ := exists_of_bind_eq_ok h
  have habs := isAbsolute_of_resolved hroot
  dsimp only at h
  split at h
  · cases h
    exact ⟨habs, isAbsolute_of_optionMapM happ (isAbsolute_findAppDir files habs),
      isAbsolute_of_optionMapM hout habs⟩
  · cases h

/-- **What comes of loading a configuration.** Either there is one, its three file names are bare and its
directories are absolute; or it is refused; or an error escapes that is no refusal. That is so exactly when a
directory that has to be looked up cannot be, or a command line for the formatter is not whole. -/
theorem load_outcomes (files : FileTree) (environment : Environment) (project : Path)
    (overrides : List (Key × Setting)) :
    (∀ config, load files environment project overrides = .ok config →
        isBareName config.clientFile = true ∧ isBareName config.serverFile = true ∧
          isBareName config.routeFile = true ∧ config.projectRoot.isAbsolute = true ∧
          config.appDir.isAbsolute = true ∧ config.outDir.isAbsolute = true) ∧
      ((∃ cause, load files environment project overrides = .error cause ∧ ¬ cause.IsRefusal) ↔
        Escapes environment project overrides) := by
  refine ⟨fun config h => ?_, load_escapes_iff⟩
  obtain ⟨hclient, hserver⟩ := hasBareNames_of_load h
  exact ⟨hclient, hserver, isBareName_routeFile_of_load h, isAbsolute_of_load h⟩

end

attribute [local instance] Host.solitary

/-- A variable that leaves a quote open gives an error that is no refusal. -/
theorem load_openQuote :
    ∃ cause, load (.directory []) [("ROUTESDK_FORMATTER", "prettier \x27")] (.ofString "/work") [] =
      .error cause ∧ ¬ cause.IsRefusal :=
  ⟨.unreadableCommand .unclosedQuote, by rfl, id⟩

end Config

end RouteBinder.Project
