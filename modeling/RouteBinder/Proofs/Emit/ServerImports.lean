import RouteBinder.Emit.Artifact
import RouteBinder.Proofs.Emit.CombinedImports
import RouteBinder.Proofs.Emit.Members
import RouteBinder.Proofs.Emit.NumberedNames

/-!
# RouteBinder.Proofs.Emit.ServerImports

**What names mean in the file for the server.** The bodies of all handlers are replayed in one file, and
they keep the names by which their own route files call what they import. The import lines of the file
(`serverImports`) bind such a name to the same thing exactly when the import `KeepsName` among the
imports of all route files: it is the first of its name, and neither a number nor the framework gives
the name to something else. What is in use is told by the route files themselves
(`mem_usedImports_iff`): a default or named import always is where a body refers to it, while of the
names for one module as a namespace only the first of the whole tree is there at all.
-/

namespace RouteBinder.Emit

open Text FileSystem Route Body

/-! ### The lines of the file -/

/-- The lines bind the name to what `imported` says, and to nothing else. A file that binds a name
twice is rejected, so the name has to be there once. -/
def BindsTo (lines : List ImportSpec) (imported : ImportedName) : Prop :=
  (lines.flatMap ImportSpec.bindings).filter (·.name == imported.name) = [imported]

instance (lines : List ImportSpec) (imported : ImportedName) : Decidable (BindsTo lines imported) :=
  inferInstanceAs (Decidable (_ = _))

/-- What replayed bodies need of the framework, as imports. -/
def runtimeSpecs (module : String) : List ImportSpec :=
  [{ specifier := module, named := [{ name := "tryCatchFunction" }] },
    { specifier := "next/headers", named := [{ name := "headers", localAlias := some "nextHeaders" }] },
    { specifier := "next/headers", named := [{ name := "cookies", localAlias := some "nextCookies" }] },
    { specifier := "next/navigation", named := [{ name := "redirect" }] }]

def runtimeNames : List String := ["tryCatchFunction", "nextHeaders", "nextCookies", "redirect"]

/-- The line for an import of the framework. -/
def runtimeLine (spec : ImportSpec) : String :=
  "import " ++ renderNamedList spec.named ++ " from \"" ++ spec.specifier ++ "\";"

/-- The text that the file for the server exports. -/
def serverObject [Recovery] (tree : RouteTree) : String := accessorObject tree Server.member

/-- The imports of the route files that the file for the server uses. -/
def usedSpecs [Recovery] [Host] (tree : RouteTree) (directory : Path) : List ImportSpec :=
  filterUsed (treeImports tree (some directory)) [serverObject tree]

/-- The imports of the file for the server. -/
def serverImports [Recovery] [Host] (tree : RouteTree) (directory : Path) (module : String) :
    List ImportSpec :=
  dealias (usedSpecs tree directory) ++ runtimeSpecs module

theorem runtimeLine_tryCatch (module : String) :
    runtimeLine { specifier := module, named := [{ name := "tryCatchFunction" }] } =
      tryCatchImport module := by
  have hfront : "import " ++ renderNamedList [{ name := "tryCatchFunction" }] ++ " from \"" =
      "import \x7b tryCatchFunction \x7d from \"" := by
    decide +kernel
  exact congrArg (fun front => front ++ module ++ "\";") hfront

theorem map_runtimeLine_tail (module : String) :
    (runtimeSpecs module).tail.map runtimeLine = serverRuntimeImports := by
  have hheaders : runtimeLine
      { specifier := "next/headers", named := [{ name := "headers", localAlias := some "nextHeaders" }] } =
        "import \x7b headers as nextHeaders \x7d from \"next/headers\";" := by
    decide +kernel
  have hcookies : runtimeLine
      { specifier := "next/headers", named := [{ name := "cookies", localAlias := some "nextCookies" }] } =
        "import \x7b cookies as nextCookies \x7d from \"next/headers\";" := by
    decide +kernel
  have hredirect : runtimeLine { specifier := "next/navigation", named := [{ name := "redirect" }] } =
      "import \x7b redirect \x7d from \"next/navigation\";" := by
    decide +kernel
  show [runtimeLine _, runtimeLine _, runtimeLine _] = serverRuntimeImports
  rw [hheaders, hcookies, hredirect]
  rfl

theorem map_runtimeLine (module : String) :
    (runtimeSpecs module).map runtimeLine = tryCatchImport module :: serverRuntimeImports := by
  rw [← map_runtimeLine_tail module, ← runtimeLine_tryCatch]
  rfl

/-- The file for the server has the lines of its imports, and no other imports. -/
theorem assembleServer_eq [Recovery] [Host] (tree : RouteTree) (directory : Path) (module : String) :
    assembleServer (serverObject tree) (treeImports tree (some directory)) module =
      String.intercalate "\n" ([serverBanner, ""] ++
        ((dealias (usedSpecs tree directory)).map renderImport ++
          (runtimeSpecs module).map runtimeLine) ++ ["", apiExport (serverObject tree), ""]) := by
  rw [map_runtimeLine, assembleServer, artifactImports, usedSpecs]
  simp only [List.append_assoc, List.cons_append, List.nil_append]

/-! ### The imports in use -/

/-- What the imports in use bind, before names are told apart. -/
def usedImports [Recovery] [Host] (tree : RouteTree) (directory : Path) : List ImportedName :=
  (usedSpecs tree directory).flatMap ImportSpec.bindings

variable {tree node : RouteTree} {directory : Path} {module : String} {imported : ImportedName}

theorem mem_usedImports_iff [Recovery] [Host] :
    imported ∈ usedImports tree directory ↔
      (imported ∈ fileImports tree directory ∧ Arrives (fileImports tree directory) imported) ∧
        ∃ other, (other ∈ fileImports tree directory ∧ Arrives (fileImports tree directory) other) ∧
          other.specifier = imported.specifier ∧ isUsedIn (serverObject tree) other = true := by
  have hcombines := combines_treeImports tree directory
  rw [usedImports, usedSpecs, hcombines.mem_filterUsed_iff, hcombines.mem_iff]
  simp only [hcombines.mem_iff, fileImports]

/-- A default or named import is in use where the text mentions its name. -/
theorem mem_usedImports_of_ne_all [Recovery] [Host] (himported : imported ∈ fileImports tree directory)
    (hne : imported.exported ≠ .all) (hmentions : mentions (serverObject tree) imported.name = true) :
    imported ∈ usedImports tree directory := by
  have harrives : Arrives (fileImports tree directory) imported := fun hall => absurd hall hne
  refine mem_usedImports_iff.2 ⟨⟨himported, harrives⟩, imported, ⟨himported, harrives⟩, rfl, ?_⟩
  rw [isUsedIn_of_ne_all hne]
  exact hmentions

/-- A name for a module is in use if it is the first, and it or something else of the module is
used. -/
theorem mem_usedImports_iff_of_all [Recovery] [Host] (himported : imported ∈ fileImports tree directory)
    (hall : imported.exported = .all) :
    imported ∈ usedImports tree directory ↔
      Arrives (fileImports tree directory) imported ∧
        (mentionsMember (serverObject tree) imported.name = true ∨
          ∃ other ∈ fileImports tree directory, other.specifier = imported.specifier ∧
            other.exported ≠ .all ∧ mentions (serverObject tree) other.name = true) := by
  rw [mem_usedImports_iff]
  constructor
  · rintro ⟨⟨-, harrives⟩, other, ⟨hother, hoarrives⟩, hspecifier, hused⟩
    refine ⟨harrives, ?_⟩
    by_cases hoall : other.exported = .all
    -- Both are the first name of their module.
    · have hsame : other = imported := by
        have hfind := hoarrives hoall
        rw [hspecifier, harrives hall] at hfind
        exact (Option.some.inj hfind).symm
      rw [isUsedIn_of_all hoall, hsame] at hused
      exact Or.inl hused
    · rw [isUsedIn_of_ne_all hoall] at hused
      exact Or.inr ⟨other, hother, hspecifier, hoall, hused⟩
  · rintro ⟨harrives, hused⟩
    refine ⟨⟨himported, harrives⟩, ?_⟩
    rcases hused with hused | ⟨other, hother, hspecifier, hne, hused⟩
    · exact ⟨imported, ⟨himported, harrives⟩, rfl, (isUsedIn_of_all hall).trans hused⟩
    · exact ⟨other, ⟨hother, fun hoall => absurd hoall hne⟩, hspecifier,
        (isUsedIn_of_ne_all hne).trans hused⟩

/-! ### Keeping a name -/

/-- The import is the first of its name, and no other gets the name with a number. -/
structure KeepsName (imports : List ImportedName) (imported : ImportedName) : Prop where
  first : imports.find? (·.name == imported.name) = some imported
  unnumbered : ∀ other ∈ numberedNames [] imports, other.name ≠ imported.name

/-- No import has the name, but exactly one gets it with a number, and that stands for the same. -/
structure RestoredByNumber (imports : List ImportedName) (imported : ImportedName) : Prop where
  absent : ∀ other ∈ imports, other.name ≠ imported.name
  numbered : (numberedNames [] imports).filter (·.name == imported.name) = [imported]

theorem keepsName_iff {imports : List ImportedName} :
    KeepsName imports imported ↔ firstNamed [] imports imported.name = [imported] ∧
      (numberedNames [] imports).filter (·.name == imported.name) = [] := by
  rw [firstNamed, if_neg List.not_mem_nil, Option.toList_eq_singleton_iff, List.filter_eq_nil_iff]
  constructor
  · intro h
    exact ⟨h.first, fun other hother heq => h.unnumbered other hother (beq_iff_eq.1 heq)⟩
  · rintro ⟨hfirst, hnumbered⟩
    exact ⟨hfirst, fun other hother heq => hnumbered other hother (beq_iff_eq.2 heq)⟩

theorem restoredByNumber_iff {imports : List ImportedName} :
    RestoredByNumber imports imported ↔ firstNamed [] imports imported.name = [] ∧
      (numberedNames [] imports).filter (·.name == imported.name) = [imported] := by
  rw [firstNamed, if_neg List.not_mem_nil, Option.toList_eq_nil_iff, List.find?_eq_none]
  constructor
  · intro h
    exact ⟨fun other hother heq => h.absent other hother (beq_iff_eq.1 heq), h.numbered⟩
  · rintro ⟨habsent, hnumbered⟩
    exact ⟨fun other hother heq => habsent other hother (beq_iff_eq.2 heq), hnumbered⟩

/-- A name can come from its first import, from a number, or from the further lines. -/
theorem bindsTo_dealias_append_iff {used further : List ImportSpec} :
    BindsTo (dealias used ++ further) imported ↔
      (firstNamed [] (used.flatMap ImportSpec.bindings) imported.name ++
          (numberedNames [] (used.flatMap ImportSpec.bindings)).filter (·.name == imported.name)) ++
        (further.flatMap ImportSpec.bindings).filter (·.name == imported.name) = [imported] := by
  rw [BindsTo, List.flatMap_append, List.filter_append, bindings_dealias, ← List.perm_singleton,
    ← List.perm_singleton]
  have hperm := (filter_numberedAfter imported.name (used.flatMap ImportSpec.bindings) []).append_right
    ((further.flatMap ImportSpec.bindings).filter (·.name == imported.name))
  exact ⟨hperm.symm.trans, hperm.trans⟩

theorem map_name_runtimeSpecs (module : String) :
    ((runtimeSpecs module).flatMap ImportSpec.bindings).map ImportedName.name = runtimeNames := rfl

theorem runtimeSpecs_ne_all (module : String) :
    ∀ other ∈ (runtimeSpecs module).flatMap ImportSpec.bindings, other.exported ≠ .all := by
  intro other hother hall
  have hmap : ((runtimeSpecs module).flatMap ImportSpec.bindings).map ImportedName.exported =
      [.one "tryCatchFunction", .one "headers", .one "cookies", .one "redirect"] := rfl
  have := List.mem_map_of_mem (f := ImportedName.exported) hother
  rw [hmap, hall] at this
  revert this
  decide

theorem runtimeSpecs_filter_eq_nil_iff {name : String} :
    ((runtimeSpecs module).flatMap ImportSpec.bindings).filter (·.name == name) = [] ↔
      name ∉ runtimeNames := by
  rw [← map_name_runtimeSpecs module, List.filter_eq_nil_iff, List.mem_map]
  constructor
  · rintro hall ⟨other, hother, heq⟩
    exact hall other hother (beq_iff_eq.2 heq)
  · intro hnone other hother heq
    exact hnone ⟨other, hother, beq_iff_eq.1 heq⟩

/-- An import in use, or a namespace, has its name from the imports of the route files or not at
all. -/
theorem bindsTo_iff_keepsName [Recovery] [Host]
    (himported : imported ∈ usedImports tree directory ∨ imported.exported = .all) :
    BindsTo (serverImports tree directory module) imported ↔ imported.name ∉ runtimeNames ∧
      (KeepsName (usedImports tree directory) imported ∨
        RestoredByNumber (usedImports tree directory) imported) := by
  rw [serverImports, bindsTo_dealias_append_iff, List.append_eq_singleton_iff,
    List.append_eq_singleton_iff, List.append_eq_nil_iff, runtimeSpecs_filter_eq_nil_iff, keepsName_iff,
    restoredByNumber_iff, usedImports]
  constructor
  · rintro (⟨⟨hfirst, -⟩, hruntime⟩ | ⟨hfiles, hruntime⟩)
    -- The name would be bound by a line of the framework alone.
    · exfalso
      rcases himported with hused | hall
      · rw [firstNamed, if_neg List.not_mem_nil, Option.toList_eq_nil_iff, List.find?_eq_none] at hfirst
        exact hfirst imported hused (beq_self_eq_true _)
      · have hmem : imported ∈ ((runtimeSpecs module).flatMap ImportSpec.bindings).filter
            (·.name == imported.name) := by
          rw [hruntime]
          exact List.mem_singleton_self _
        exact runtimeSpecs_ne_all module imported (List.mem_of_mem_filter hmem) hall
    · exact ⟨hruntime, hfiles.symm⟩
  · rintro ⟨hruntime, hfiles⟩
    exact Or.inr ⟨hfiles.symm, hruntime⟩

/-- No import for values becomes one for types only. -/
theorem typeOnly_of_mem_serverImports [Recovery] [Host] {spec line : ImportSpec}
    (hspec : spec ∈ rebasedImports tree directory) (hline : line ∈ serverImports tree directory module)
    (hspecifier : spec.specifier = line.specifier) (htype : line.typeOnly = true) :
    spec.typeOnly = true := by
  rcases List.mem_append.1 hline with hused | hruntime
  · obtain ⟨combined, hcombined, hsame, hflag⟩ := exists_of_mem_dealiasAfter hused
    refine (combines_treeImports tree directory).typeOnly combined (List.mem_of_mem_filter hcombined) ?_
      spec hspec ?_
    · rw [hflag, htype]
    · rw [hspecifier, hsame]
  · have hvalues : ∀ line ∈ runtimeSpecs module, line.typeOnly = false := by simp [runtimeSpecs]
    rw [hvalues line hruntime] at htype
    cases htype

/-! ### What bodies get -/

section

variable {directories : List String} {handler : Handler} {text : String} {spec : ImportSpec}

theorem mem_fileImports [Host] (hentry : (directories, node) ∈ tree.entries) (hspec : spec ∈ node.imports)
    (himported : imported ∈ (rebaseImport (some directory) spec).bindings) :
    imported ∈ fileImports tree directory :=
  List.mem_flatMap.2 ⟨_, mem_rebasedImports hentry hspec directory, himported⟩

/-- **What a name of a replayed body means.** The body of a handler refers to a name that the handler's
route file imports. The lines of the file for the server bind the name to the same thing exactly when it
is no name of the framework, and the import keeps it among all imports in use (or a number happens to
restore it). A default or named import is always in use here; the name of a namespace is when it is the
first for its module in the tree, and the text has it in front of a dot or has another name of the
module. Lines for types only bind what was imported for types only; and the file that is assembled has
these lines and no other imports. -/
theorem bindsTo_serverImports_iff [Host] [Recovery] (hentry : (directories, node) ∈ tree.entries)
    (hhandler : handler ∈ node.handlers) (hreplayed : Server.replayed handler directories = some text)
    (hspec : spec ∈ node.imports)
    (himported : imported ∈ (rebaseImport (some directory) spec).bindings)
    (hrefers : RefersTo text imported.name) :
    (BindsTo (serverImports tree directory module) imported ↔ imported.name ∉ runtimeNames ∧
      (KeepsName (usedImports tree directory) imported ∨
        RestoredByNumber (usedImports tree directory) imported)) ∧
    (imported ∈ usedImports tree directory ↔ (imported.exported = .all →
      (fileImports tree directory).find? (namesModule imported.specifier) = some imported ∧
        (mentionsMember (serverObject tree) imported.name = true ∨
          ∃ other ∈ fileImports tree directory, other.specifier = imported.specifier ∧
            other.exported ≠ .all ∧ mentions (serverObject tree) other.name = true))) ∧
    (∀ line ∈ serverImports tree directory module, imported ∈ line.bindings → line.typeOnly = true →
      spec.typeOnly = true) ∧
    assembleServer (serverObject tree) (treeImports tree (some directory)) module =
      String.intercalate "\n" ([serverBanner, ""] ++
        ((dealias (usedSpecs tree directory)).map renderImport ++
          (runtimeSpecs module).map runtimeLine) ++ ["", apiExport (serverObject tree), ""]) := by
  have hfile : imported ∈ fileImports tree directory := mem_fileImports hentry hspec himported
  have hmentions : mentions (serverObject tree) imported.name = true :=
    Server.mentions_of_replayed hentry hhandler hreplayed hrefers.isName hrefers.mentions
  -- The parts are about the lines, about what is in use, about types and about the file.
  refine ⟨?_, ?_, ?_, assembleServer_eq tree directory module⟩
  · refine bindsTo_iff_keepsName ?_
    by_cases hall : imported.exported = .all
    · exact Or.inr hall
    · exact Or.inl (mem_usedImports_of_ne_all hfile hall hmentions)
  · by_cases hall : imported.exported = .all
    · rw [mem_usedImports_iff_of_all hfile hall, Arrives]
      simp only [hall, forall_true_left]
    · simp only [mem_usedImports_of_ne_all hfile hall hmentions, hall, false_implies]
  · intro line hline hbinds htype
    have hspecifier : (rebaseImport (some directory) spec).specifier = line.specifier := by
      rw [← ImportedName.specifier_of_mem himported, ImportedName.specifier_of_mem hbinds]
    have hflag := typeOnly_of_mem_serverImports (mem_rebasedImports hentry hspec directory) hline
      hspecifier htype
    exact hflag

end

/-! ### Two routes -/

/-- A tree of two routes, each with one handler and one import. -/
def smallRoute (segment body : String) (spec : ImportSpec) : RouteTree :=
  .node { segment, handlers := [{ verb := "GET", body }], imports := [spec] } []

def smallTree (first second : RouteTree) : RouteTree :=
  .node { segment := "app" } [(first.segment, first), (second.segment, second)]

def smallDirectory : Path := ⟨.root, ["api"]⟩

/-- An import of `db` from a file beside the route file. -/
def databaseOf (segment : String) : ImportSpec :=
  { specifier := "./db", named := [{ name := "db" }], origin := some ⟨.root, ["app", segment]⟩ }

def firstDatabase : RouteTree := smallRoute "a" "return db.read();" (databaseOf "a")

def secondDatabase : RouteTree := smallRoute "b" "return db.write();" (databaseOf "b")

def databases : RouteTree := smallTree firstDatabase secondDatabase

attribute [local instance] Host.solitary Recovery.verbatim

theorem replayed_first : Server.replayed { verb := "GET", body := "return db.read();" } ["a"] =
    some "return db.read();" := by
  decide +kernel

theorem entry_first : (["a"], firstDatabase) ∈ databases.entries := by decide +kernel

theorem usedImports_databases : usedImports databases smallDirectory =
    [⟨"db", "../app/a/db", .one "db"⟩, ⟨"db", "../app/b/db", .one "db"⟩] := by
  have hmentions : mentions (serverObject databases) "db" = true :=
    Server.mentions_of_replayed entry_first (List.mem_singleton_self _) replayed_first
      (by decide +kernel) (by decide +kernel)
  have hlines : treeImports databases (some smallDirectory) =
      [{ specifier := "../app/a/db", named := [{ name := "db" }] },
        { specifier := "../app/b/db", named := [{ name := "db" }] }] := by
    decide +kernel
  have hall : ∀ line ∈ treeImports databases (some smallDirectory),
      isUsed [serverObject databases] line = true := by
    intro line hline
    have hbinds : ⟨"db", line.specifier, .one "db"⟩ ∈ line.bindings := by
      rw [hlines] at hline
      revert line
      decide +kernel
    exact isUsed_iff.2 ⟨_, hbinds, _, List.mem_singleton_self _, hmentions⟩
  rw [usedImports, usedSpecs, filterUsed, List.filter_eq_self.2 hall, hlines]
  decide +kernel

/-- Where two route files import `db` from different files, the body of the first still means its own,
while the body of the second means the one of the first. -/
theorem bindsTo_serverImports_databases :
    BindsTo (serverImports databases smallDirectory "../utils/tryCatch.ts")
        ⟨"db", "../app/a/db", .one "db"⟩ ∧
      ¬ BindsTo (serverImports databases smallDirectory "../utils/tryCatch.ts")
        ⟨"db", "../app/b/db", .one "db"⟩ := by
  have hsecond : (["b"], secondDatabase) ∈ databases.entries := by decide +kernel
  have hwrite : Server.replayed { verb := "GET", body := "return db.write();" } ["b"] =
      some "return db.write();" := by
    decide +kernel
  constructor
  · refine (bindsTo_serverImports_iff entry_first (List.mem_singleton_self _) replayed_first
      (List.mem_singleton_self _) (by decide +kernel) (by decide +kernel)).1.2 ⟨by decide, Or.inl ?_⟩
    rw [usedImports_databases]
    exact ⟨by decide +kernel, by decide +kernel⟩
  · intro hbinds
    have hkept := ((bindsTo_serverImports_iff hsecond (List.mem_singleton_self _) hwrite
      (List.mem_singleton_self _) (by decide +kernel) (by decide +kernel)).1.1 hbinds).2
    rw [usedImports_databases] at hkept
    rcases hkept with hkeeps | hrestored
    · have hfirst := hkeeps.first
      revert hfirst
      decide +kernel
    · exact hrestored.absent _ List.mem_cons_self rfl

/-- A route file that calls the module `lib` by a name of its own. -/
def libraryAs (segment body name : String) : RouteTree :=
  smallRoute segment body { specifier := "lib", namespaceName := some name }

def libraries : RouteTree :=
  smallTree (libraryAs "a" "return x.f();" "x") (libraryAs "b" "return y.g();" "y")

/-- Two route files import one module as a namespace, each under its own name. The file for the server
binds only the first name, so the body of the second handler refers to nothing. -/
theorem not_bindsTo_second_namespace :
    (["b"], libraryAs "b" "return y.g();" "y") ∈ libraries.entries ∧
      Server.replayed { verb := "GET", body := "return y.g();" } ["b"] = some "return y.g();" ∧
      ⟨"y", "lib", .all⟩ ∈ (rebaseImport (some smallDirectory)
        { specifier := "lib", namespaceName := some "y" }).bindings ∧
      RefersTo "return y.g();" "y" ∧ Body.declaresName "return y.g();" "y" = false ∧
      ¬ BindsTo (serverImports libraries smallDirectory "../utils/tryCatch.ts")
        ⟨"y", "lib", .all⟩ := by
  refine ⟨by decide +kernel, by decide +kernel, by decide +kernel, by decide +kernel,
    by decide +kernel, ?_⟩
  have hlines : treeImports libraries (some smallDirectory) =
      [{ specifier := "lib", namespaceName := some "x" }] := by
    decide +kernel
  rw [serverImports, usedSpecs, hlines, filterUsed, List.filter_cons, List.filter_nil]
  split
  · decide +kernel
  · decide +kernel

end RouteBinder.Emit
