import RouteBinder.Proofs.FileSystem.CompletedWrites
import RouteBinder.Proofs.Project.ScannedRoutes

/-!
# RouteBinder.Proofs.Project.SkippedFiles

**One bad file never affects another route.** A route file that cannot be read or has syntax errors
counts as empty, so the tree is the one without the file, and one notice is all that it leaves behind
(`Build.routeTree_removeAll`).

The files are taken away one at a time. `Build.ofTree_erase` follows the build to the directory of one
of them: on the way there, only the notices of one subtree differ, and no decision above it looks at
them. The other route files are still there then (`RouteFiles.Site.erase`), so the next one can be
taken away.
-/

namespace RouteBinder.Project

open FileSystem Route Analysis Body

/-- Why a route file with this content is left out. -/
def skipCause? (content : ByteArray) : Option SkipCause :=
  match FileTree.decode? content with
  | none => some .unreadable
  | some source => if (Grammar.parse? source).isNone then some .syntaxErrors else none

namespace Build

variable [Recovery]
variable {routeFile : String} {directory : Path} {content : ByteArray} {cause : SkipCause}

theorem analyzeFile_of_skipCause? (h : skipCause? content = some cause) :
    analyzeFile directory routeFile (some (.file content)) =
      .ok ⟨{}, [.skippedFile (directory.child routeFile) cause]⟩ := by
  rw [skipCause?] at h
  simp only [analyzeFile_eq, analyze]
  cases hd : FileTree.decode? content with
  | none =>
      rw [hd] at h
      cases h
      rfl
  | some source =>
      rw [hd] at h
      dsimp only at h ⊢
      cases hp : Grammar.parse? source with
      | none =>
          rw [hp] at h
          cases h
          rfl
      | some program =>
          rw [hp] at h
          cases h

/-! ### The same result with one notice less -/

/-- The results are the same, but one notice is only reported by the first. -/
def SameBut (note : Notice) (run run' : Except CircularReturn (Noted RouteTree)) : Prop :=
  ∀ noted, run = .ok noted →
    ∃ notices, run' = .ok ⟨noted.value, notices⟩ ∧ noted.notices.Perm (note :: notices)

/-- What is attached does not depend on what was reported before. -/
theorem sameBut_attachAll {note : Notice} {node : RouteTree} {notices notices' : List Notice}
    (h : notices.Perm (note :: notices')) (entries : List (String × FileTree)) :
    SameBut note (attachAll routeFile directory ⟨node, notices⟩ entries)
      (attachAll routeFile directory ⟨node, notices'⟩ entries) := by
  intro noted hrun
  rw [attachAll_notices] at hrun ⊢
  cases hr : attachAll routeFile directory ⟨node, []⟩ entries with
  | error cause =>
      rw [hr] at hrun
      cases hrun
  | ok result =>
      rw [hr] at hrun
      cases hrun
      exact ⟨_, rfl, h.append_right result.notices⟩

theorem attachAll_append (node : Noted RouteTree) (front back : List (String × FileTree)) :
    attachAll routeFile directory node (front ++ back) =
      (attachAll routeFile directory node front).bind fun middle =>
        attachAll routeFile directory middle back := by
  induction front generalizing node with
  | nil => rfl
  | cons entry rest ih =>
      obtain ⟨name, entry⟩ := entry
      rw [List.cons_append]
      by_cases ht : isTaken name entry = true
      · rw [attachAll_cons_of_taken ht, attachAll_cons_of_taken ht]
        cases ofTree routeFile (directory.child name) entry with
        | error cause => rfl
        | ok subtree => exact ih _
      · rw [Bool.not_eq_true] at ht
        rw [attachAll_cons_of_not_taken ht, attachAll_cons_of_not_taken ht, ih]

/-- Entries that are not taken can be left out. -/
theorem attachAll_filter {kept : String × FileTree → Bool} {entries : List (String × FileTree)}
    (h : ∀ entry ∈ entries, kept entry = false → isTaken entry.1 entry.2 = false)
    (node : Noted RouteTree) :
    attachAll routeFile directory node (entries.filter kept) =
      attachAll routeFile directory node entries := by
  induction entries generalizing node with
  | nil => rfl
  | cons entry rest ih =>
      rw [List.forall_mem_cons] at h
      obtain ⟨name, entry⟩ := entry
      cases hk : kept (name, entry) with
      | false =>
          rw [List.filter_cons_of_neg (by simp [hk]), attachAll_cons_of_not_taken (h.1 hk), ih h.2]
      | true =>
          rw [List.filter_cons_of_pos hk]
          by_cases ht : isTaken name entry = true
          · rw [attachAll_cons_of_taken ht, attachAll_cons_of_taken ht]
            cases ofTree routeFile (directory.child name) entry with
            | error cause => rfl
            | ok subtree => exact ih h.2 _
          · rw [Bool.not_eq_true] at ht
            rw [attachAll_cons_of_not_taken ht, attachAll_cons_of_not_taken ht, ih h.2]

/-- A subtree that differs in a notice makes that difference to its directory. -/
theorem sameBut_attachAll_entry {note : Notice} {name : String} {entry entry' : FileTree}
    (ht : isTaken name entry = true) (ht' : isTaken name entry' = true)
    (h : SameBut note (ofTree routeFile (directory.child name) entry)
      (ofTree routeFile (directory.child name) entry'))
    (node : Noted RouteTree) (front back : List (String × FileTree)) :
    SameBut note (attachAll routeFile directory node (front ++ (name, entry) :: back))
      (attachAll routeFile directory node (front ++ (name, entry') :: back)) := by
  intro noted hrun
  rw [attachAll_append] at hrun ⊢
  cases hfront : attachAll routeFile directory node front with
  | error cause =>
      rw [hfront] at hrun
      cases hrun
  | ok middle =>
      rw [hfront] at hrun
      change attachAll routeFile directory middle ((name, entry) :: back) = _ at hrun
      change ∃ notices, attachAll routeFile directory middle ((name, entry') :: back) = _ ∧ _
      rw [attachAll_cons_of_taken ht] at hrun
      rw [attachAll_cons_of_taken ht']
      cases hsubtree : ofTree routeFile (directory.child name) entry with
      | error cause =>
          rw [hsubtree] at hrun
          cases hrun
      | ok subtree =>
          obtain ⟨notices, hsubtree', hperm⟩ := h subtree hsubtree
          rw [hsubtree] at hrun
          rw [hsubtree']
          -- The notices of the directories in front, of the subtree, and of its attachment.
          have hnotices : (middle.notices ++ (subtree.notices ++
              (attach name subtree.value middle.value).notices)).Perm
              (note :: (middle.notices ++ (notices ++
                (attach name subtree.value middle.value).notices))) :=
            ((hperm.append_right _).append_left _).trans List.perm_middle
          exact sameBut_attachAll hnotices back noted hrun

/-! ### Taking one file away -/

omit [Recovery] in
theorem exists_erase_eq_directory {place : List String} (h : place ≠ [])
    (entries : List (String × FileTree)) :
    ∃ below, (FileTree.directory entries).erase place = .directory below := by
  have hprefix : ¬ place <+: [] := fun hp => h (List.prefix_nil.1 hp)
  obtain ⟨below, hbelow⟩ := FileTree.exists_directory_erase
    (show (FileTree.directory entries).at? [] = some (.directory entries) from rfl) hprefix
  exact ⟨below, Option.some.inj hbelow⟩

/-- What the analysis sees of an entry that is a directory does not depend on what is in it. -/
theorem analyzeFile_put {entries below : List (String × FileTree)} {name : String}
    {entry : FileTree} (hl : entries.lookup name = some entry) (hentry : entry.isDirectory = true) :
    analyzeFile directory routeFile
        ((Keyed.put name (.directory below) entries).lookup routeFile) =
      analyzeFile directory routeFile (entries.lookup routeFile) := by
  rw [Keyed.lookup_put]
  by_cases hname : routeFile = name
  · rw [if_pos hname, hname, hl]
    cases entry with
    | file content => cases hentry
    | directory entries => rfl
  · rw [if_neg hname]

/-- The route file itself is no directory of routes. -/
theorem attachAll_remove {entries : List (String × FileTree)} (hs : Keyed.Sorted entries)
    (hl : entries.lookup routeFile = some (.file content)) (node : Noted RouteTree) :
    attachAll routeFile directory node (Keyed.remove routeFile entries) =
      attachAll routeFile directory node entries := by
  refine attachAll_filter (fun entry hentry hdropped => ?_) node
  obtain ⟨name, entry⟩ := entry
  have hname : name = routeFile := by simpa using hdropped
  subst hname
  have hlookup := hs.lookup_of_mem hentry
  rw [hl] at hlookup
  cases hlookup
  rfl

/-- Without a route file that is left out anyway, the build gives the same node and one notice
less. -/
theorem ofTree_erase (hskip : skipCause? content = some cause) : ∀ {place : List String}
    {directory : Path} {tree : FileTree}, tree.wellFormed = true →
    (∀ name ∈ place, RouteFiles.isIgnored name = false) →
    tree.at? (place ++ [routeFile]) = some (.file content) →
    SameBut (.skippedFile ((directory.descend place).child routeFile) cause)
      (ofTree routeFile directory tree)
      (ofTree routeFile directory (tree.erase (place ++ [routeFile])))
  | _, _, .file other, _, _, hat => by
      rw [FileTree.at?_file _ (List.append_ne_nil_of_right_ne_nil _ (List.cons_ne_nil _ _))] at hat
      cases hat
  | [], directory, .directory entries, hw, _, hat => by
      have hl : entries.lookup routeFile = some (.file content) := by
        rwa [List.nil_append, FileTree.at?_singleton] at hat
      have hs := (FileTree.wellFormed_directory.1 hw).1
      intro noted hrun
      rw [ofTree_directory, hl, analyzeFile_of_skipCause? hskip] at hrun
      rw [List.nil_append, FileTree.erase, ofTree_directory, Keyed.lookup_remove_self]
      change ∃ notices, attachAll routeFile directory _ (Keyed.remove routeFile entries) = _ ∧ _
      rw [attachAll_remove hs hl, Path.descend_nil]
      exact sameBut_attachAll (List.Perm.refl _) entries noted hrun
  | name :: rest, directory, .directory entries, hw, hi, hat => by
      have hrest : rest ++ [routeFile] ≠ [] := by simp
      rw [List.forall_mem_cons] at hi
      rw [List.cons_append, FileTree.at?_directory_cons] at hat
      obtain ⟨entry, hl, hat⟩ := Option.bind_eq_some_iff.1 hat
      cases entry with
      | file other =>
          rw [FileTree.at?_file _ hrest] at hat
          cases hat
      | directory inner =>
          have hs := (FileTree.wellFormed_directory.1 hw).1
          have haround : entries = Keyed.before name entries ++
              (name, .directory inner) :: Keyed.behind name entries := by
            have := hs.eq_around name
            rwa [hl] at this
          have htaken : ∀ below, isTaken name (.directory below) = true :=
            fun below => isTaken_iff.2 ⟨⟨below, rfl⟩, hi.1⟩
          have hsubtree : SameBut _ (ofTree routeFile (directory.child name) (.directory inner)) _ :=
            ofTree_erase hskip (FileTree.wellFormed_of_lookup hw hl).2 hi.2 hat
          obtain ⟨below, hbelow⟩ := exists_erase_eq_directory hrest inner
          rw [hbelow] at hsubtree
          rw [List.cons_append, FileTree.erase_directory_cons hrest, hl]
          dsimp only
          rw [hbelow, ofTree_directory, ofTree_directory, analyzeFile_put hl rfl,
            Keyed.Sorted.put_eq_around hs]
          cases analyzeFile directory routeFile (entries.lookup routeFile) with
          | error cause =>
              intro noted hrun
              cases hrun
          | ok analysis =>
              have hentry := sameBut_attachAll_entry (htaken inner) (htaken below) hsubtree
                (analysis.map (bareNode directory)) (Keyed.before name entries)
                (Keyed.behind name entries)
              rw [← haround] at hentry
              rw [Path.descend_cons]
              exact hentry

end Build

/-! ### Route files and their places -/

namespace RouteFiles

variable [Host] {files root : FileTree} {appDir : Path} {routeFile : String} {place : List String}
  {content : ByteArray}

theorem mem_scanEntries {directory path : Path} {entries : List (String × FileTree)} :
    path ∈ scanEntries routeFile directory entries ↔
      ∃ entry ∈ entries, isIgnored entry.1 = false ∧
        path ∈ scanTree routeFile (directory.child entry.1) entry.2 := by
  induction entries with
  | nil => simp [scanEntries]
  | cons entry rest ih =>
      obtain ⟨name, entry⟩ := entry
      rw [scanEntries, List.mem_append, ih, List.exists_mem_cons_iff]
      cases isIgnored name <;> simp

/-- The route file of a directory itself. -/
theorem mem_ownFile {directory path : Path} {entries : List (String × FileTree)} :
    (path ∈ if (entries.lookup routeFile).any FileTree.isFile then
        [(directory.child routeFile).resolve] else []) ↔
      ∃ content, entries.lookup routeFile = some (.file content) ∧
        path = (directory.child routeFile).resolve := by
  cases entries.lookup routeFile with
  | none => simp
  | some entry =>
    cases entry with
    | file content => simp [FileTree.isFile, FileTree.isDirectory]
    | directory below => simp [FileTree.isFile, FileTree.isDirectory]

/-- A scan finds the files with the name of the routes that are in no ignored directory. -/
theorem mem_scanTree {tree : FileTree} {directory path : Path} (hw : tree.wellFormed = true) :
    path ∈ scanTree routeFile directory tree ↔
      ∃ place content, (∀ name ∈ place, isIgnored name = false) ∧
        tree.at? (place ++ [routeFile]) = some (.file content) ∧
        path = ((directory.descend place).child routeFile).resolve := by
  induction hsize : sizeOf tree using Nat.strong_induction_on generalizing tree directory with
  | _ size ih =>
  subst hsize
  cases tree with
  | file other =>
      refine iff_of_false List.not_mem_nil ?_
      rintro ⟨place, content, -, hat, -⟩
      rw [FileTree.at?_file _ (List.append_ne_nil_of_right_ne_nil _ (List.cons_ne_nil _ _))] at hat
      cases hat
  | directory entries =>
      have hbelow : ∀ {name entry} {directory : Path}, (name, entry) ∈ entries →
          (path ∈ scanTree routeFile directory entry ↔
            ∃ place content, (∀ name ∈ place, isIgnored name = false) ∧
              entry.at? (place ++ [routeFile]) = some (.file content) ∧
              path = ((directory.descend place).child routeFile).resolve) := by
        intro name entry directory hentry
        have hlt := List.sizeOf_lt_of_mem hentry
        have hl := (FileTree.wellFormed_directory.1 hw).1.lookup_of_mem hentry
        refine ih _ ?_ (FileTree.wellFormed_of_lookup hw hl).2 rfl
        simp at hlt ⊢
        omega
      rw [scanTree, List.mem_append, mem_ownFile, mem_scanEntries]
      constructor
      · rintro (⟨content, hl, hpath⟩ | ⟨⟨name, entry⟩, hentry, hi, hpath⟩)
        · refine ⟨[], content, fun _ h => absurd h List.not_mem_nil, ?_, ?_⟩
          · rwa [List.nil_append, FileTree.at?_singleton]
          · rwa [Path.descend_nil]
        · have hl := (FileTree.wellFormed_directory.1 hw).1.lookup_of_mem hentry
          obtain ⟨place, content, hplace, hat, hpath⟩ := (hbelow hentry).1 hpath
          refine ⟨name :: place, content, List.forall_mem_cons.2 ⟨hi, hplace⟩, ?_, ?_⟩
          · rw [List.cons_append, FileTree.at?_directory_cons, hl]
            exact hat
          · rwa [Path.descend_cons]
      · rintro ⟨place, content, hplace, hat, hpath⟩
        cases place with
        | nil =>
            rw [List.nil_append, FileTree.at?_singleton] at hat
            rw [Path.descend_nil] at hpath
            exact Or.inl ⟨content, hat, hpath⟩
        | cons name rest =>
            rw [List.cons_append, FileTree.at?_directory_cons] at hat
            obtain ⟨entry, hl, hat⟩ := Option.bind_eq_some_iff.1 hat
            rw [List.forall_mem_cons] at hplace
            rw [Path.descend_cons] at hpath
            have hentry := Keyed.mem_of_lookup hl
            exact Or.inr ⟨(name, entry), hentry, hplace.1,
              (hbelow hentry).2 ⟨rest, content, hplace.2, hat, hpath⟩⟩

/-- A route file with the content stands in the directory at the place below that of the routes. -/
structure Site (files : FileTree) (appDir : Path) (routeFile : String) (place : List String)
    (content : ByteArray) : Prop where
  unignored : ∀ name ∈ place, isIgnored name = false
  stands : files.at? (appDir.resolve.parts ++ (place ++ [routeFile])) = some (.file content)

/-- The path of the route file in the directory at a place. -/
def filePath (appDir : Path) (routeFile : String) (place : List String) : Path :=
  (appDir.descend place).child routeFile

theorem mem_scan (hw : files.wellFormed = true) (hfind : files.find? appDir = some root)
    {path : Path} : path ∈ scan files appDir routeFile ↔
      ∃ place content, Site files appDir routeFile place content ∧
        path = (filePath appDir routeFile place).resolve := by
  have hat := FileTree.at?_resolve_of_find? hfind
  rw [scan, hfind]
  dsimp only
  rw [List.mem_mergeSort, mem_scanTree (FileTree.wellFormed_at? hw hat)]
  constructor
  · rintro ⟨place, content, hplace, hfile, hpath⟩
    refine ⟨place, content, ⟨hplace, ?_⟩, hpath⟩
    rw [FileTree.at?_append, hat]
    exact hfile
  · rintro ⟨place, content, ⟨hplace, hfile⟩, hpath⟩
    rw [FileTree.at?_append, hat] at hfile
    exact ⟨place, content, hplace, hfile, hpath⟩

theorem Site.resolve_filePath (hw : files.wellFormed = true)
    (h : Site files appDir routeFile place content) :
    (filePath appDir routeFile place).resolve = appDir.resolve.descend (place ++ [routeFile]) := by
  have hdots : ".." ∉ place ++ [routeFile] := fun hn =>
    (FileTree.isEntryName_iff.1 (FileTree.isEntryName_of_at? hw h.stands _
      (List.mem_append_right _ hn))).2.2.1 rfl
  rw [← Path.resolve_descend hdots, ← Path.descend_descend]
  rfl

/-- What taking the file away does to the files. -/
theorem Site.removeAt_eq (hw : files.wellFormed = true)
    (h : Site files appDir routeFile place content) :
    files.removeAt (filePath appDir routeFile place).resolve =
      files.erase (appDir.resolve.parts ++ (place ++ [routeFile])) := by
  have hdots : ".." ∉ (filePath appDir routeFile place).resolve.parts :=
    Path.dots_not_mem_resolve _
  rw [FileTree.removeAt, Path.resolve_eq_self (Path.isAbsolute_resolve _) hdots,
    h.resolve_filePath hw]
  rfl

theorem Site.exists_directory (h : Site files appDir routeFile place content) :
    ∃ entries, files = .directory entries := by
  cases files with
  | directory entries => exact ⟨entries, rfl⟩
  | file other =>
      have hstands := h.stands
      rw [FileTree.at?_file _ (by simp)] at hstands
      cases hstands

theorem Site.find?_erase (hfind : files.find? appDir = some root)
    (h : Site files appDir routeFile place content) :
    (files.erase (appDir.resolve.parts ++ (place ++ [routeFile]))).find? appDir =
      some (root.erase (place ++ [routeFile])) := by
  have hat := FileTree.at?_resolve_of_find? hfind
  have hpass : FileTree.Passable files appDir.way.dropLast := by
    obtain ⟨entries, rfl⟩ := h.exists_directory
    exact FileTree.passable_of_find? hfind
  have hpass' := FileTree.passable_erase hpass fun entries hdir => by
    rw [h.stands] at hdir
    cases hdir
  rw [FileTree.find?_eq_at?_resolve hpass', FileTree.at?_erase_append (by simp), hat, Option.map_some]

/-- The other route files stay. -/
theorem Site.erase {place' : List String} {content' : ByteArray}
    (h' : Site files appDir routeFile place' content')
    (h : Site files appDir routeFile place content) (hne : place' ≠ place) :
    Site (files.erase (appDir.resolve.parts ++ (place ++ [routeFile]))) appDir routeFile place'
      content' := by
  refine ⟨h'.unignored, (FileTree.agreeOutside_erase _ files).symm.at?_file ?_ h'.stands⟩
  -- Nothing stands below a file.
  rintro ⟨back, hback⟩
  cases back with
  | nil =>
      rw [List.append_nil, List.append_cancel_left_eq] at hback
      exact hne (List.append_cancel_right hback).symm
  | cons name rest =>
      have hstands := h'.stands
      rw [← hback, FileTree.at?_append, h.stands, Option.bind_some,
        FileTree.at?_file _ (List.cons_ne_nil _ _)] at hstands
      cases hstands

theorem Site.content?_filePath (hw : files.wellFormed = true)
    (h : Site files appDir routeFile place content) :
    files.content? (filePath appDir routeFile place).resolve = some content := by
  have hdots : ".." ∉ (filePath appDir routeFile place).resolve.parts :=
    Path.dots_not_mem_resolve _
  have hfind : files.find? (filePath appDir routeFile place).resolve = some (.file content) := by
    rw [FileTree.find?_eq_at? (Path.isAbsolute_resolve _) hdots, h.resolve_filePath hw]
    exact h.stands
  rw [FileTree.content?, hfind]

end RouteFiles

namespace Build

open RouteFiles

section

variable [Host] {files root : FileTree} {appDir : Path} {routeFile : String} {place : List String}
  {content : ByteArray} {cause : SkipCause}

/-- Without a route file that is left out anyway, the tree is the same and one notice is less. -/
theorem sameBut_removeAt [Recovery] (hw : files.wellFormed = true)
    (hfind : files.find? appDir = some root) (h : Site files appDir routeFile place content)
    (hskip : skipCause? content = some cause) :
    SameBut (.skippedFile (filePath appDir routeFile place) cause)
      (routeTree files appDir routeFile)
      (routeTree (files.removeAt (filePath appDir routeFile place).resolve) appDir routeFile) := by
  have hat := FileTree.at?_resolve_of_find? hfind
  have hfile : root.at? (place ++ [routeFile]) = some (.file content) := by
    have hstands := h.stands
    rwa [FileTree.at?_append, hat] at hstands
  rw [h.removeAt_eq hw, routeTree_eq, routeTree_eq, hfind, h.find?_erase hfind]
  exact ofTree_erase hskip (FileTree.wellFormed_at? hw hat) h.unignored hfile

/-- The notice says that the route file at the path is left out. -/
def ReportsSkipped (files : FileTree) (appDir : Path) (routeFile : String) (path : Path)
    (note : Notice) : Prop :=
  ∃ place content cause, Site files appDir routeFile place content ∧
    skipCause? content = some cause ∧ path = (filePath appDir routeFile place).resolve ∧
    note = .skippedFile (filePath appDir routeFile place) cause

/-- A file that is left out is reported of in the same way when another file is gone. -/
theorem ReportsSkipped.removeAt {note : Notice} {path : Path}
    (h : ReportsSkipped files appDir routeFile path note) (hw : files.wellFormed = true)
    (hsite : Site files appDir routeFile place content)
    (hne : path ≠ (filePath appDir routeFile place).resolve) :
    ReportsSkipped (files.removeAt (filePath appDir routeFile place).resolve) appDir routeFile path
      note := by
  obtain ⟨place', content', cause', hsite', hskip', rfl, rfl⟩ := h
  rw [hsite.removeAt_eq hw]
  refine ⟨place', content', cause', hsite'.erase hsite ?_, hskip', rfl, rfl⟩
  rintro rfl
  exact hne rfl

/-- Without some route files that are left out anyway, the tree is the same, and what is reported of
them is less. -/
theorem routeTree_foldl_removeAt [Recovery] {skipped : List Path} {notes : List Notice}
    (hskipped : List.Forall₂ (ReportsSkipped files appDir routeFile) skipped notes)
    (hnodup : skipped.Nodup) (hw : files.wellFormed = true)
    (hfind : files.find? appDir = some root) {tree : RouteTree} {notices : List Notice}
    (h : routeTree files appDir routeFile = .ok ⟨tree, notices⟩) :
    ∃ notices', routeTree (skipped.foldl FileTree.removeAt files) appDir routeFile =
        .ok ⟨tree, notices'⟩ ∧ notices.Perm (notices' ++ notes) := by
  induction skipped generalizing files root notices notes with
  | nil =>
      cases hskipped
      exact ⟨notices, h, by rw [List.append_nil]⟩
  | cons path skipped ih =>
      obtain ⟨note, notes, hfirst, hrest, rfl⟩ := List.forall₂_cons_left_iff.1 hskipped
      obtain ⟨place, content, cause, hsite, hskip, rfl, rfl⟩ := hfirst
      rw [List.nodup_cons] at hnodup
      obtain ⟨notices', hrun, hperm⟩ := sameBut_removeAt hw hfind hsite hskip _ h
      have hothers : ∀ other ∈ skipped, other ≠ (filePath appDir routeFile place).resolve := by
        rintro other hother rfl
        exact hnodup.1 hother
      have hafter := ((List.forall₂_and_left _ _).2 ⟨hothers, hrest⟩).imp
        fun other note hother => hother.2.removeAt hw hsite hother.1
      have hfind' := hsite.find?_erase hfind
      rw [← hsite.removeAt_eq hw] at hfind'
      obtain ⟨notices'', hrun', hperm'⟩ :=
        ih hafter hnodup.2 (FileTree.wellFormed_erase _ hw) hfind' hrun
      refine ⟨notices'', hrun', hperm.trans ?_⟩
      exact (hperm'.cons _).trans List.perm_middle.symm

omit [Host] in
theorem exists_forall₂ {α β : Type} {R : α → β → Prop} : ∀ {as : List α},
    (∀ a ∈ as, ∃ b, R a b) → ∃ bs, List.Forall₂ R as bs
  | [], _ => ⟨[], .nil⟩
  | a :: as, h => by
      rw [List.forall_mem_cons] at h
      obtain ⟨b, hb⟩ := h.1
      obtain ⟨bs, hbs⟩ := exists_forall₂ h.2
      exact ⟨b :: bs, .cons hb hbs⟩

/-- Why the file at a path is left out. -/
def skipCauseAt? (files : FileTree) (path : Path) : Option SkipCause :=
  (files.content? path).bind skipCause?

theorem exists_reportsSkipped (hw : files.wellFormed = true)
    (hfind : files.find? appDir = some root) {path : Path}
    (hscan : path ∈ scan files appDir routeFile) (h : (skipCauseAt? files path).isSome = true) :
    ∃ note, ReportsSkipped files appDir routeFile path note := by
  obtain ⟨place, content, hsite, rfl⟩ := (mem_scan hw hfind).1 hscan
  rw [skipCauseAt?, hsite.content?_filePath hw] at h
  obtain ⟨cause, hskip⟩ := Option.isSome_iff_exists.1 h
  exact ⟨_, place, content, cause, hsite, hskip, rfl, rfl⟩

/-- The analysis of all route files comes to an end when each of them is left out or analyzed. -/
theorem analyzable_of_scan [Recovery] (hw : files.wellFormed = true)
    (hfind : files.find? appDir = some root) (h : ∀ path ∈ scan files appDir routeFile,
      (skipCauseAt? files path).isSome = true ∨ (analyzed? files path).isSome = true) :
    Analyzable routeFile appDir root := by
  intro place content hi hfile
  have hat := FileTree.at?_resolve_of_find? hfind
  have hsite : Site files appDir routeFile place content := by
    refine ⟨hi, ?_⟩
    rw [FileTree.at?_append, hat]
    exact hfile
  have hcontent := hsite.content?_filePath hw
  rcases h _ ((mem_scan hw hfind).2 ⟨place, content, hsite, rfl⟩) with
    hskipped | hanalyzed
  · rw [skipCauseAt?, hcontent] at hskipped
    obtain ⟨cause, hskip⟩ := Option.isSome_iff_exists.1 hskipped
    exact ⟨_, analyzeFile_of_skipCause? hskip⟩
  · rw [analyzed?, hcontent, Option.bind_some] at hanalyzed
    obtain ⟨analysis, hanalysis⟩ := Option.isSome_iff_exists.1 hanalyzed
    obtain ⟨source, hdecode, hanalysis⟩ := Option.bind_eq_some_iff.1 hanalysis
    have hanalyze : analyze source (some (filePath appDir routeFile place).resolve.parent) =
        .ok analysis := by
      cases hrun : analyze source (some (filePath appDir routeFile place).resolve.parent) with
      | error failure =>
          rw [hrun] at hanalysis
          cases hanalysis
      | ok found =>
          rw [hrun] at hanalysis
          cases hanalysis
          rfl
    have hfile : ∃ noted, analyzeFile (filePath appDir routeFile place).resolve.parent routeFile
        (some (.file content)) = .ok noted := by
      rw [analyzeFile_eq]
      dsimp only
      rw [hdecode]
      dsimp only
      rw [hanalyze]
      exact ⟨_, rfl⟩
    exact exists_analyzeFile_of hfile

/-- The notice says why the file at the path is left out. -/
def Reports (files : FileTree) (path : Path) (note : Notice) : Prop :=
  ∃ file cause, file.resolve = path ∧ skipCauseAt? files path = some cause ∧
    note = .skippedFile file cause

theorem ReportsSkipped.reports {path : Path} {note : Notice} (hw : files.wellFormed = true)
    (h : ReportsSkipped files appDir routeFile path note) : Reports files path note := by
  obtain ⟨place, content, cause, hsite, hskip, rfl, rfl⟩ := h
  refine ⟨_, cause, rfl, ?_, rfl⟩
  rw [skipCauseAt?, hsite.content?_filePath hw]
  exact hskip

/-- For every set of route files that cannot be read or have syntax errors, when all other route files
are analyzed: the tree is the one that is built when these files are not there, and the notices are
those of that build and one for each of these files. -/
theorem routeTree_removeAll [Recovery] {skipped : List Path} (hw : files.wellFormed = true)
    (hnodup : skipped.Nodup)
    (hskipped : ∀ path ∈ skipped,
      path ∈ scan files appDir routeFile ∧ (skipCauseAt? files path).isSome = true)
    (hrest : ∀ path ∈ scan files appDir routeFile, path ∉ skipped →
      (analyzed? files path).isSome = true) :
    ∃ tree notices notices' notes,
      routeTree files appDir routeFile = .ok ⟨tree, notices⟩ ∧
      routeTree (skipped.foldl FileTree.removeAt files) appDir routeFile = .ok ⟨tree, notices'⟩ ∧
      notices.Perm (notices' ++ notes) ∧ List.Forall₂ (Reports files) skipped notes := by
  cases hfind : files.find? appDir with
  | none =>
      -- Where there is no directory of the routes, there is no route file.
      obtain rfl : skipped = [] := List.eq_nil_iff_forall_not_mem.2 fun path hpath => by
        have hscan := (hskipped path hpath).1
        rw [scan, hfind] at hscan
        cases hscan
      have hrun : routeTree files appDir routeFile = .ok ⟨bareNode appDir {}, []⟩ := by
        rw [routeTree_eq, hfind]
      exact ⟨_, [], [], [], hrun, hrun, List.Perm.refl _, .nil⟩
  | some root =>
      have hanalyzable := analyzable_of_scan hw hfind fun path hpath =>
        (Classical.em (path ∈ skipped)).imp (fun h => (hskipped path h).2) (hrest path hpath)
      have hroot := FileTree.wellFormed_at? hw (FileTree.at?_resolve_of_find? hfind)
      obtain ⟨tree, notices, hrun⟩ := hanalyzable.exists_builds hroot
      have hroutes : routeTree files appDir routeFile = .ok ⟨tree, notices⟩ := by
        rw [routeTree_eq, hfind]
        exact hrun
      obtain ⟨notes, hnotes⟩ : ∃ notes,
          List.Forall₂ (ReportsSkipped files appDir routeFile) skipped notes :=
        exists_forall₂ fun path hpath =>
          exists_reportsSkipped hw hfind (hskipped path hpath).1 (hskipped path hpath).2
      obtain ⟨notices', hrun', hperm⟩ := routeTree_foldl_removeAt hnotes hnodup hw hfind hroutes
      exact ⟨tree, notices, notices', notes, hroutes, hrun', hperm,
        hnotes.imp fun path note h => h.reports hw⟩

end

/-! ### Two bad files beside a good one -/

/-- Routes with a file that has syntax errors, in a group, with one that is no text, and with one
that has a handler. -/
def mixedRoutes : List (String × FileTree) :=
  [("(shop)", .directory [("cart", .directory [("route.ts", .file "export \x7b".toUTF8)])]),
    ("logo", .directory [("route.ts", .file ⟨#[0xff]⟩)]),
    ("users", .directory [("route.ts", Coordinator.smallRoute)])]

def mixedFiles : FileTree := Coordinator.smallFiles mixedRoutes

/-- The paths of the two bad files. -/
def mixedSkipped [Host] : List Path :=
  [["(shop)", "cart"], ["logo"]].map fun place =>
    (filePath Coordinator.smallConfig.appDir "route.ts" place).resolve

theorem mem_scan_mixed [Host] {path : Path} :
    path ∈ scan mixedFiles Coordinator.smallConfig.appDir "route.ts" ↔
      path ∈ scanTree "route.ts" Coordinator.smallConfig.appDir (.directory mixedRoutes) := by
  have hfind : mixedFiles.find? Coordinator.smallConfig.appDir =
      some (.directory mixedRoutes) := rfl
  rw [scan, hfind]
  exact List.mem_mergeSort

attribute [local instance] Host.solitary Recovery.verbatim

set_option maxRecDepth 100000 in
theorem skipCauseAt?_mixed :
    mixedSkipped.map (skipCauseAt? mixedFiles) = [some .syntaxErrors, some .unreadable] ∧
      (∀ path ∈ mixedSkipped,
        path ∈ scanTree "route.ts" Coordinator.smallConfig.appDir (.directory mixedRoutes) ∧
          (skipCauseAt? mixedFiles path).isSome = true) ∧
      ∀ path ∈ scanTree "route.ts" Coordinator.smallConfig.appDir (.directory mixedRoutes),
        path ∉ mixedSkipped → (analyzed? mixedFiles path).isSome = true := by
  decide +kernel

theorem routeTree_removeAll_mixed :
    mixedSkipped.map (skipCauseAt? mixedFiles) = [some .syntaxErrors, some .unreadable] ∧
      ∃ tree notices notices' notes,
        routeTree mixedFiles Coordinator.smallConfig.appDir "route.ts" = .ok ⟨tree, notices⟩ ∧
        routeTree (mixedSkipped.foldl FileTree.removeAt mixedFiles)
          Coordinator.smallConfig.appDir "route.ts" = .ok ⟨tree, notices'⟩ ∧
        notices.Perm (notices' ++ notes) ∧
        List.Forall₂ (Reports mixedFiles) mixedSkipped notes := by
  obtain ⟨hcauses, hskipped, hrest⟩ := skipCauseAt?_mixed
  refine ⟨hcauses, routeTree_removeAll (by decide +kernel) (by decide +kernel) ?_ ?_⟩
  · exact fun path hpath => (hskipped path hpath).imp_left mem_scan_mixed.2
  · exact fun path hpath => hrest path (mem_scan_mixed.1 hpath)

end Build

end RouteBinder.Project
