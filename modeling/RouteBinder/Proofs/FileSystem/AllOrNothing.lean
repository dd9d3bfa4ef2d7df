import RouteBinder.Proofs.FileSystem.CompletedWrites

/-!
# RouteBinder.Proofs.FileSystem.AllOrNothing

**A write happens, or nothing does.** A write is given up at the first of its steps that goes wrong. What
it has done until then are directories above the destination, which stay, and at most one file in a place
where nothing stood, which is taken away again. So

* the files after a write that is given up are those from before (`AtomicWrite.keeps_write`);
* the files after a completed write are those from before, but for the one that is written
  (`AtomicWrite.replaces_write`); and
* a write is completed when no step is refused and nothing stands in its way, and only then
  (`AtomicWrite.write_eq_true_iff`).
-/

namespace RouteBinder.FileSystem

namespace FileTree

variable {s t u tree tree' : FileTree} {place other passed names : List String} {path : Path}
  {content bytes : ByteArray}

/-! ### The same files -/

/-- The same files stand in the same places. Directories are not compared. -/
def SameFiles (s t : FileTree) : Prop :=
  ∀ place bytes, at? place s = some (file bytes) ↔ at? place t = some (file bytes)

theorem SameFiles.trans (h : SameFiles s t) (h' : SameFiles t u) : SameFiles s u :=
  fun place bytes => (h place bytes).trans (h' place bytes)

/-- Where a directory is made, there was no file. -/
theorem sameFiles_ensureDirectory (h : ensureDirectory place tree = some tree') :
    SameFiles tree tree' := by
  refine fun other bytes => ⟨at?_file_ensureDirectory h, fun hat => ?_⟩
  by_cases hp : other <+: place
  · obtain ⟨back, rfl⟩ := hp
    obtain ⟨entry, he, hentry⟩ := at?_of_ensureDirectory_append h
    obtain ⟨-, entries, rfl⟩ := exists_directory_of_ensureDirectory he
    rw [hentry] at hat
    cases hat
  · rwa [at?_ensureDirectory h hp] at hat

theorem sameFiles_makeAlong (h : makeAlong passed names tree = some tree') : SameFiles tree tree' := by
  induction names generalizing passed tree with
  | nil =>
      cases h
      exact fun _ _ => Iff.rfl
  | cons name rest ih =>
      obtain ⟨middle, hm, h⟩ := Option.bind_eq_some_iff.1 h
      exact (sameFiles_ensureDirectory hm).trans (ih h)

/-- What happens in a place where nothing stands before and after leaves all files alone. -/
theorem AgreeOutside.sameFiles (h : AgreeOutside place s t) (hs : at? place s = none)
    (ht : at? place t = none) : SameFiles s t :=
  fun _ _ => ⟨h.symm.at?_file_of_none hs, h.at?_file_of_none ht⟩

/-! ### Directories that are made -/

/-- A directory can be made unless a file stands in its place or on the way to it. -/
theorem exists_ensureDirectory_iff :
    (∃ tree', ensureDirectory place tree = some tree') ↔
      ∀ front, front <+: place → ∀ bytes, at? front tree ≠ some (file bytes) := by
  induction place generalizing tree with
  | nil =>
      simp only [List.prefix_nil, forall_eq, at?_nil]
      cases tree with
      | file content => simp [ensureDirectory]
      | directory entries => simp [ensureDirectory]
  | cons name rest ih =>
      cases tree with
      | file content =>
          refine iff_of_false (by simp [ensureDirectory]) fun h => ?_
          exact h [] List.nil_prefix content rfl
      | directory entries =>
          have hunder : (∃ tree', ensureDirectory (name :: rest) (directory entries) = some tree') ↔
              ∃ entry, ensureDirectory rest (under name entries) = some entry := by
            simp only [ensureDirectory_directory_cons]
            constructor
            · rintro ⟨-, entry, h, -⟩
              exact ⟨entry, h⟩
            · rintro ⟨entry, h⟩
              exact ⟨_, entry, h, rfl⟩
          have hfile : ∀ front bytes, at? front (under name entries) = some (file bytes) ↔
              at? (name :: front) (directory entries) = some (file bytes) := by
            intro front bytes
            rw [at?_directory_cons, under]
            cases entries.lookup name with
            | some entry => exact Iff.rfl
            | none =>
                cases front with
                | nil => simp
                | cons next back => rw [Option.getD_none, at?_empty (List.cons_ne_nil _ _), Option.bind_none]
          rw [hunder, ih]
          constructor
          · intro h front hfront bytes
            cases front with
            | nil => simp
            | cons first front =>
                obtain ⟨rfl, hrest⟩ := List.cons_prefix_cons.1 hfront
                rw [Ne, ← hfile]
                exact h front hrest bytes
          · intro h front hfront bytes
            rw [Ne, hfile]
            exact h (name :: front) (List.cons_prefix_cons.2 ⟨rfl, hfront⟩) bytes

theorem Passable.ne_file (h : Passable tree names) (bytes : ByteArray) :
    at? (Path.placeOf names) tree ≠ some (file bytes) := by
  obtain ⟨entries, hat⟩ := h.directory
  rw [hat]
  nofun

/-- On the way to the next place is what was on the way before. -/
theorem prefix_placeOf_concat {front : List String} {name : String}
    (h : front <+: Path.placeOf (names ++ [name])) :
    front <+: Path.placeOf names ∨ front = Path.placeOf (names ++ [name]) := by
  by_cases hname : name = ".."
  · rw [hname, Path.placeOf_concat_dots] at h
    exact Or.inl (h.trans (List.dropLast_prefix _))
  · rw [Path.placeOf_concat hname] at h ⊢
    exact (List.prefix_concat_iff.1 h).symm

/-- All directories on a way can be made unless a file stands in the place of one of them. -/
theorem exists_makeAlong_iff (hpass : Passable tree passed) :
    (∃ tree', makeAlong passed names tree = some tree') ↔
      ∀ front, front <+: names → ∀ bytes,
        at? (Path.placeOf (passed ++ front)) tree ≠ some (file bytes) := by
  induction names generalizing passed tree with
  | nil =>
      refine iff_of_true ⟨tree, rfl⟩ fun front hfront => ?_
      obtain rfl := List.prefix_nil.1 hfront
      rw [List.append_nil]
      exact hpass.ne_file
  | cons name rest ih =>
      constructor
      · rintro ⟨tree', h⟩ front hfront bytes hat
        obtain ⟨middle, hm, h⟩ := Option.bind_eq_some_iff.1 h
        cases front with
        | nil =>
            rw [List.append_nil] at hat
            exact hpass.ne_file bytes hat
        | cons first front =>
            obtain ⟨rfl, hrest⟩ := List.cons_prefix_cons.1 hfront
            rw [List.append_cons, sameFiles_ensureDirectory hm] at hat
            exact (ih (passable_ensureDirectory hpass hm)).1 ⟨tree', h⟩ front hrest bytes hat
      · intro h
        obtain ⟨middle, hm⟩ : ∃ middle,
            ensureDirectory (Path.placeOf (passed ++ [name])) tree = some middle := by
          refine exists_ensureDirectory_iff.2 fun front hfront bytes => ?_
          rcases prefix_placeOf_concat hfront with hfront | rfl
          · obtain ⟨entries, hat⟩ := hpass.directory
            obtain ⟨entries', hat'⟩ := at?_of_prefix hat hfront
            rw [hat']
            nofun
          · exact h [name] (List.cons_prefix_cons.2 ⟨rfl, List.nil_prefix⟩) bytes
        obtain ⟨tree', htree'⟩ := (ih (passable_ensureDirectory hpass hm)).2
          fun front hfront bytes hat => by
            rw [← sameFiles_ensureDirectory hm, ← List.append_cons] at hat
            exact h (name :: front) (List.cons_prefix_cons.2 ⟨rfl, hfront⟩) bytes hat
        exact ⟨tree', Option.bind_eq_some_iff.2 ⟨middle, hm, htree'⟩⟩

/-- What is a directory then was one, or it is on the way to one that is made. -/
theorem directory_of_makeAlong {entries : List (String × FileTree)}
    (h : makeAlong passed names tree = some tree') (hat : at? place tree' = some (directory entries)) :
    (∃ entries', at? place tree = some (directory entries')) ∨
      ∃ front, front <+: names ∧ place <+: Path.placeOf (passed ++ front) := by
  induction names generalizing passed tree with
  | nil =>
      cases h
      exact Or.inl ⟨entries, hat⟩
  | cons name rest ih =>
      obtain ⟨middle, hm, h⟩ := Option.bind_eq_some_iff.1 h
      rcases ih h with ⟨entries', hat'⟩ | ⟨front, hfront, hp⟩
      · by_cases hp : place <+: Path.placeOf (passed ++ [name])
        · exact Or.inr ⟨[name], List.cons_prefix_cons.2 ⟨rfl, List.nil_prefix⟩, hp⟩
        · exact Or.inl ⟨entries', at?_ensureDirectory hm hp ▸ hat'⟩
      · refine Or.inr ⟨name :: front, List.cons_prefix_cons.2 ⟨rfl, hfront⟩, ?_⟩
        rwa [List.append_cons]

/-! ### Files that are kept -/

/-- The files are the same, and no way to them is blocked. -/
structure Keeps (before after : FileTree) : Prop where
  sameFiles : SameFiles before after
  passable : ∀ names, Passable before names → Passable after names

theorem Keeps.trans (h : Keeps s t) (h' : Keeps t u) : Keeps s u :=
  ⟨h.sameFiles.trans h'.sameFiles, fun names hnames => h'.passable names (h.passable names hnames)⟩

theorem keeps_makeAlong (h : makeAlong passed names tree = some tree') : Keeps tree tree' :=
  ⟨sameFiles_makeAlong h, fun _ => passable_of_makeAlong h⟩

/-- A root that is a file is only found at the root. -/
theorem content?_file_eq_some [Host] :
    (file content).content? path = some bytes ↔ path.way = [] ∧ content = bytes := by
  have hfind : (file content).find? path = walk [] (file content) path.way := rfl
  rw [content?, hfind]
  cases path.way with
  | nil => simp [walk]
  | cons name rest => simp [walk]

/-- Whatever could be read is read as before. -/
theorem Keeps.content? [Host] (h : Keeps s t) (hs : s.content? path = some bytes) :
    t.content? path = some bytes := by
  cases s with
  | file content =>
      obtain ⟨hway, rfl⟩ := content?_file_eq_some.1 hs
      obtain rfl := Option.some.inj ((h.sameFiles [] content).1 rfl)
      exact content?_file_eq_some.2 ⟨hway, rfl⟩
  | directory entries =>
      have hpass : Passable (directory entries) path.way.dropLast := by
        rw [FileTree.content?] at hs
        split at hs
        · rename_i found hfind
          exact passable_of_find? hfind
        · cases hs
      rw [content?_eq_some hpass] at hs
      rw [content?_eq_some (h.passable _ hpass)]
      exact (h.sameFiles _ _).1 hs

/-! ### Files with one replaced -/

/-- The place has a file with the content, and the same files stand in all other places. -/
structure Replaces (place : List String) (content : ByteArray) (before after : FileTree) : Prop where
  holds : after.at? place = some (file content)
  others : ∀ other bytes, other ≠ place →
    (before.at? other = some (file bytes) ↔ after.at? other = some (file bytes))

end FileTree

namespace AtomicWrite

open FileTree

variable [Host] {faults : Faults} {destination : Path} {content : ByteArray} {files made : FileTree}
  {passed names : List String}

/-! ### Writes that are given up -/

/-- A write that is given up has made directories, and then perhaps an empty file that it took away. -/
theorem exists_of_not_write (h : (write faults destination content files).2 = false) :
    (∃ front, makeAlong [] front files = some (write faults destination content files).1) ∨
      ∃ made created, files.makeDirectories destination.parent = some made ∧
        made.writeFile (temporaryFor made destination) .empty = some created ∧
        (write faults destination content files).1 =
          created.removeAt (temporaryFor made destination) := by
  revert h
  unfold write
  obtain ⟨front, -, halong, hall⟩ := exists_makeAlong_makeParents faults []
    (Path.workingDirectory.join destination.parent).parts files
  cases hmade : makeParents faults [] (Path.workingDirectory.join destination.parent).parts files with
  | mk made complete =>
  rw [hmade] at halong hall
  cases complete with
  | false => exact fun _ => Or.inl ⟨front, halong⟩
  | true =>
      dsimp only
      cases hcreate : faults.guard .createTemporary
          (made.writeFile (temporaryFor made destination) .empty) with
      | none => exact fun _ => Or.inl ⟨front, halong⟩
      | some created =>
          dsimp only
          split
          · intro _
            rw [hall rfl] at halong
            exact Or.inr ⟨made, created, halong, Faults.eq_of_guard hcreate, rfl⟩
          · exact nofun

/-- A write that is given up keeps all files, and leaves no new one. -/
theorem keeps_write (h : (write faults destination content files).2 = false) :
    Keeps files (write faults destination content files).1 := by
  rcases exists_of_not_write h with ⟨front, halong⟩ | ⟨made, created, hmade, hcreate, hafter⟩
  · exact keeps_makeAlong halong
  · rw [hafter]
    refine (keeps_makeAlong hmade).trans ?_
    have hpass := passable_of_create hmade hcreate
    have hbeside := hpass
    rw [← (isTemporary_temporaryFor made destination).parent] at hbeside
    obtain ⟨hagrees, hpassable⟩ := (Holds.of_writeFile hbeside hcreate).removeAt
    exact ⟨hagrees.sameFiles (at?_temporaryFor hpass) (at?_removeAt_temporaryFor _ _ _), hpassable⟩

/-! ### Writes that are completed -/

/-- A completed write replaces the file at its destination, or puts one there, and that is all. -/
theorem replaces_write (h : (write faults destination content files).2 = true) :
    Replaces destination.resolve.parts content files (write faults destination content files).1 := by
  obtain ⟨made, temporary, cleared, -, hc⟩ := exists_completes h
  refine ⟨hc.at?_self, fun other bytes hne => ⟨hc.at?_file hne, fun hat => ?_⟩⟩
  have hcleared : cleared.at? other = some (.file bytes) := by
    refine (agreeOutside_insert hc.puts).at?_file (fun hp => ?_) hat
    -- Nothing stands below the file that is written.
    obtain ⟨back, rfl⟩ := hp
    have hback : back ≠ [] := by
      rintro rfl
      exact hne (List.append_nil _)
    rw [at?_append, hc.at?_self, Option.bind_some, at?_file content hback] at hat
    cases hat
  exact (sameFiles_makeAlong hc.makes other bytes).2 (hc.agrees.at?_file_of_none hc.gone hcleared)

/-! ### Which writes are completed -/

/-- Making the directories on a way that are missing. -/
def missingParents (passed : List String) : List String → FileTree → List Step
  | [], _ => []
  | name :: rest, files =>
    let passed := passed ++ [name]
    (if files.isDirectoryAt ⟨.root, passed⟩ then [] else [.makeParent passed.length]) ++
      match ensureDirectory (Path.mk .root passed).normalize.parts files with
      | none => []
      | some made => missingParents passed rest made

/-- The steps of a write, in the order in which they are taken. -/
def steps (destination : Path) (files : FileTree) : List Step :=
  missingParents [] (Path.workingDirectory.join destination.parent).parts files ++
    [.createTemporary, .fill, .close, .replace]

/-- Nothing stands in the way of a file at the destination. No file is in the place of a directory above it,
and it is no directory itself, neither before these directories are made nor because one of them is. -/
structure Unobstructed (destination : Path) (files : FileTree) : Prop where
  noFile : ∀ front, front <+: destination.parent.way → ∀ bytes,
    files.at? (Path.placeOf front) ≠ some (.file bytes)
  noDirectory : ∀ entries, files.at? destination.resolve.parts ≠ some (.directory entries)
  notAbove : ∀ front, front <+: destination.parent.way →
    ¬ destination.resolve.parts <+: Path.placeOf front

/-- All directories on a way are made when none of them is missing and refused, and no file stands in the
way. -/
theorem makeParents_eq_true_iff :
    makeParents faults passed names files = (made, true) ↔
      (∀ step ∈ missingParents passed names files, faults step = false) ∧
        makeAlong passed names files = some made := by
  induction names generalizing passed files with
  | nil => simp [makeParents, missingParents, makeAlong]
  | cons name rest ih =>
      have hmissing : (∀ step ∈ if files.isDirectoryAt ⟨.root, passed ++ [name]⟩ then []
            else [Step.makeParent (passed ++ [name]).length], faults step = false) ↔
          (files.isDirectoryAt ⟨.root, passed ++ [name]⟩ = false →
            faults (.makeParent (passed ++ [name]).length) = false) := by
        cases files.isDirectoryAt ⟨.root, passed ++ [name]⟩ <;> simp
      rw [makeParents, missingParents, makeAlong, List.forall_mem_append, hmissing]
      cases hparent : makeParent faults (passed ++ [name]) files with
      | none =>
          refine iff_of_false (by simp) ?_
          rintro ⟨⟨hstep, -⟩, halong⟩
          obtain ⟨middle, hmiddle, -⟩ := Option.bind_eq_some_iff.1 halong
          rw [makeParent_eq_some_iff.2 ⟨hstep, hmiddle⟩] at hparent
          cases hparent
      | some middle =>
          obtain ⟨hstep, hmiddle⟩ := makeParent_eq_some_iff.1 hparent
          dsimp only
          rw [hmiddle, Option.bind_some, ih, and_assoc, and_iff_right hstep]

theorem forall_steps_iff :
    (∀ step ∈ steps destination files, faults step = false) ↔
      (∀ step ∈ missingParents [] (Path.workingDirectory.join destination.parent).parts files,
          faults step = false) ∧
        faults .createTemporary = false ∧ faults .fill = false ∧ faults .close = false ∧
        faults .replace = false := by
  simp only [steps, List.forall_mem_append, List.forall_mem_cons, List.not_mem_nil, false_implies,
    implies_true, and_true]

/-- Where no directory stands, none is found. -/
theorem isDirectoryAt_eq_false {path : Path} {tree : FileTree}
    (hpass : Passable tree path.way.dropLast)
    (h : ∀ entries, tree.at? path.resolve.parts ≠ some (.directory entries)) :
    tree.isDirectoryAt path = false := by
  rw [isDirectoryAt, find?_eq_at?_resolve hpass]
  cases hat : tree.at? path.resolve.parts with
  | none => rfl
  | some entry =>
      cases entry with
      | file bytes => rfl
      | directory entries => exact absurd hat (h entries)

omit [Host] in
/-- Entries of one directory with different names are apart. -/
theorem apart_concat {first second : String} (h : first ≠ second) (place : List String) :
    Apart (place ++ [first]) (place ++ [second]) := by
  have hnot : ∀ {a b : String}, a ≠ b → ¬ place ++ [a] <+: place ++ [b] := fun hab hp =>
    hab (List.cons_prefix_cons.1 ((List.prefix_append_right_inj place).1 hp)).1
  exact ⟨hnot h, hnot h.symm⟩

/-- Once the temporary file is taken away, the destination is what it was before. -/
theorem at?_removeAt_temporaryFor_destination {tree : FileTree}
    (hpass : Passable made destination.parent.way)
    (hparts : destination.resolve.parts = destination.parent.resolve.parts ++ [destination.name])
    (h : AgreeOutside (temporaryFor made destination).resolve.parts made
      (tree.removeAt (temporaryFor made destination))) :
    (tree.removeAt (temporaryFor made destination)).at? destination.resolve.parts =
      made.at? destination.resolve.parts := by
  have hfresh := at?_temporaryFor hpass
  have hgone := at?_removeAt_temporaryFor made tree destination
  rw [resolve_temporaryFor] at h hfresh hgone
  rw [hparts]
  by_cases hname : (temporaryFor made destination).name = destination.name
  · rw [← hname, hfresh, hgone]
  · exact (h.at?_of_apart (apart_concat hname _)).symm

/-- Once the directories above a destination are there and it is no directory itself, the temporary file
can be made and filled, and can take the place of the destination. -/
theorem exists_moveFile (hpass : Passable made destination.parent.way)
    (hfree : made.isDirectoryAt destination = false) (content : ByteArray) :
    ∃ created filled written,
      made.writeFile (temporaryFor made destination) .empty = some created ∧
      created.writeFile (temporaryFor made destination) content = some filled ∧
      moveFile filled (temporaryFor made destination) destination = some written := by
  have hbeside := hpass
  rw [← (isTemporary_temporaryFor made destination).parent] at hbeside
  have hway : (temporaryFor made destination).way.dropLast = destination.parent.way := by
    rw [way_temporaryFor, List.dropLast_concat]
  have hfresh : ∀ entries, made.at? (temporaryFor made destination).resolve.parts ≠
      some (.directory entries) := by
    rw [at?_temporaryFor hpass]
    nofun
  obtain ⟨created, hcreate⟩ :=
    exists_writeFile hbeside (isDirectoryAt_eq_false (hway ▸ hpass) hfresh) .empty
  have hcreated := Holds.of_writeFile hbeside hcreate
  obtain ⟨filled, hfill⟩ := exists_writeFile (hcreated.passable _ hbeside)
    (isDirectoryAt_eq_false (hway ▸ hcreated.passable _ hpass) hcreated.not_directory) content
  have hfilled := hcreated.refill hbeside hfill
  obtain ⟨hagrees, hpassable⟩ := hfilled.removeAt
  obtain ⟨hparts, hnot⟩ := of_not_isDirectoryAt hpass hfree
  rw [← at?_removeAt_temporaryFor_destination hpass hparts hagrees] at hnot
  obtain ⟨written, hwritten⟩ := exists_writeFile (hpassable _ hpass)
    (isDirectoryAt_eq_false (Path.dropLast_way hparts ▸ hpassable _ hpass) hnot) content
  refine ⟨created, filled, written, hcreate, hfill, Option.bind_eq_some_iff.2 ⟨content, ?_, hwritten⟩⟩
  rw [content?_eq_some (hway ▸ hfilled.passable _ hpass)]
  exact hfilled.stands

/-- Nothing stands in the way exactly when the directories above the destination can be made, and it is
none of them then. -/
theorem unobstructed_iff :
    Unobstructed destination files ↔
      ∃ made, files.makeDirectories destination.parent = some made ∧
        Passable made destination.parent.way ∧ made.isDirectoryAt destination = false := by
  constructor
  · rintro ⟨hfile, hdirectory, habove⟩
    cases files with
    | file content => exact absurd rfl (hfile [] List.nil_prefix content)
    | directory entries =>
        obtain ⟨made, hmade⟩ := (exists_makeAlong_iff (passable_root entries)).2 hfile
        have hpass := passable_makeDirectories hmade
        refine ⟨made, hmade, hpass, isDirectoryAt_eq_false ?_ fun below hat => ?_⟩
        · by_cases hparts : destination.parts = []
          · have hsame : destination.resolve.parts = Path.placeOf destination.parent.way := by
              rw [Path.parts_resolve, Path.parent_eq_self hparts]
            exact absurd (hsame ▸ List.prefix_rfl) (habove destination.parent.way List.prefix_rfl)
          · rw [Path.way_eq_concat hparts, List.dropLast_concat]
            exact hpass
        · rcases directory_of_makeAlong hmade hat with ⟨entries', hat'⟩ | ⟨front, hfront, hp⟩
          · exact hdirectory entries' hat'
          · exact habove front hfront hp
  · rintro ⟨made, hmade, hpass, hfree⟩
    obtain ⟨-, hnot⟩ := of_not_isDirectoryAt hpass hfree
    refine ⟨?_, fun entries hat => ?_, fun front hfront hp => ?_⟩
    · cases files with
      | directory entries => exact (exists_makeAlong_iff (passable_root entries)).1 ⟨made, hmade⟩
      | file content =>
          obtain ⟨entries, hroot⟩ := hpass [] List.nil_prefix
          rw [makeAlong_file hmade] at hroot
          cases hroot
    · obtain ⟨entries', hat'⟩ := exists_directory_makeAlong hmade hat
      exact hnot entries' hat'
    · obtain ⟨entries, hat⟩ := hpass front hfront
      obtain ⟨entries', hat'⟩ := at?_of_prefix hat hp
      exact hnot entries' hat'

/-- A completed write found no directory in the place of its destination. -/
theorem unobstructed_of_write (h : (write faults destination content files).2 = true) :
    Unobstructed destination files := by
  obtain ⟨made, temporary, cleared, hpass, hc⟩ := exists_completes h
  refine unobstructed_iff.2 ⟨made, hc.makes, hpass,
    isDirectoryAt_eq_false (Path.dropLast_way hc.resolves ▸ hpass) fun entries hat => ?_⟩
  -- A directory there would still be one when the file is put.
  have hway := Path.way_of_resolve hc.resolves
  have hreached : Passable made destination.way := by
    rw [hway, passable_concat, ← hway, ← Path.parts_resolve]
    exact ⟨hpass, entries, hat⟩
  obtain ⟨entries', hat'⟩ := (hc.passableMade _ hreached).directory
  rw [← Path.parts_resolve] at hat'
  exact hc.noDirectory entries' hat'

/-- A write is completed when none of its steps is refused and nothing stands in its way. -/
theorem write_eq_true_iff :
    (write faults destination content files).2 = true ↔
      (∀ step ∈ steps destination files, faults step = false) ∧ Unobstructed destination files := by
  constructor
  · intro h
    refine ⟨?_, unobstructed_of_write h⟩
    revert h
    unfold write
    cases hmade : makeParents faults [] (Path.workingDirectory.join destination.parent).parts files with
    | mk made complete =>
    cases complete with
    | false => exact nofun
    | true =>
        obtain ⟨hparents, -⟩ := makeParents_eq_true_iff.1 hmade
        dsimp only
        cases hcreate : faults.guard .createTemporary
            (made.writeFile (temporaryFor made destination) .empty) with
        | none => exact nofun
        | some created =>
            dsimp only
            split
            · exact nofun
            · rename_i written hfinish
              intro _
              obtain ⟨filled, hfill, hfinish⟩ := Option.bind_eq_some_iff.1 hfinish
              obtain ⟨closed, hclose, hfinish⟩ := Option.bind_eq_some_iff.1 hfinish
              rw [Faults.guard_eq_some_iff] at hcreate hfill hclose hfinish
              exact forall_steps_iff.2 ⟨hparents, hcreate.1, hfill.1, hclose.1, hfinish.1⟩
  · rintro ⟨hsteps, hunobstructed⟩
    obtain ⟨hparents, hcreate, hfill, hclose, hreplace⟩ := forall_steps_iff.1 hsteps
    obtain ⟨made, halong, hpass, hfree⟩ := unobstructed_iff.1 hunobstructed
    have hmade : makeParents faults [] (Path.workingDirectory.join destination.parent).parts files =
        (made, true) := makeParents_eq_true_iff.2 ⟨hparents, halong⟩
    obtain ⟨created, filled, written, hcreated, hfilled, hmoved⟩ := exists_moveFile hpass hfree content
    unfold write
    rw [hmade]
    dsimp only
    rw [Faults.guard_eq_some_iff.2 ⟨hcreate, hcreated⟩]
    dsimp only
    rw [Faults.guard_eq_some_iff.2 ⟨hfill, hfilled⟩, Option.bind_eq_bind, Option.bind_some,
      Faults.guard_eq_some_iff.2 ⟨hclose, rfl⟩, Option.bind_some,
      Faults.guard_eq_some_iff.2 ⟨hreplace, hmoved⟩]

end AtomicWrite

end RouteBinder.FileSystem
