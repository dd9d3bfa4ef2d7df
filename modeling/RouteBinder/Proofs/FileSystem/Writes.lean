import RouteBinder.Proofs.FileSystem.Changes
import RouteBinder.Proofs.FileSystem.Resolution

/-!
# RouteBinder.Proofs.FileSystem.Writes

**Writes to any destination.** A destination may be relative, and it may lead through `..`. Making the
directories above it makes everything on its way, so that afterwards the way is `FileTree.Passable` and
the destination stands where its path is resolved to. Hence

* a directory keeps its entries when the destination does not lead into it
  (`AtomicWrite.entriesAt_write`); and
* the tree stays well-formed when the names of the destination are those of a text
  (`AtomicWrite.wellFormed_write`).
-/

namespace RouteBinder.FileSystem

namespace FileTree

variable {tree tree' : FileTree} {entries : List (String × FileTree)}
  {place front back names : List String}

/-! ### The entries at a place -/

/-- What is in the directory at a place: nothing where there is none. -/
def entriesAt (place : List String) (tree : FileTree) : List (String × FileTree) :=
  ((at? place tree).map FileTree.entries).getD []

theorem entriesAt_of_directory (h : at? place tree = some (directory entries)) :
    entriesAt place tree = entries := by
  rw [entriesAt, h]
  rfl

theorem entriesAt_of_not_directory
    (h : ∀ entries, at? place tree ≠ some (directory entries)) : entriesAt place tree = [] := by
  rw [entriesAt]
  cases hat : at? place tree with
  | none => rfl
  | some entry =>
      cases entry with
      | file content => rfl
      | directory entries => exact absurd hat (h entries)

theorem wellFormed_entriesAt (h : tree.wellFormed = true) (place : List String) :
    (directory (entriesAt place tree)).wellFormed = true := by
  rw [entriesAt]
  cases hat : at? place tree with
  | none => decide
  | some entry =>
      cases entry with
      | file content => rfl
      | directory entries => exact wellFormed_at? h hat

/-- Below a place, the entries there are all that counts. -/
theorem at?_append_of_ne_nil (hb : back ≠ []) (front : List String) (tree : FileTree) :
    at? (front ++ back) tree = at? back (directory (entriesAt front tree)) := by
  rw [at?_append, entriesAt]
  obtain ⟨name, rest, rfl⟩ := List.exists_cons_of_ne_nil hb
  cases at? front tree with
  | none => rfl
  | some entry => cases entry <;> rfl

/-- Where there is no directory on the way to a place, nothing is in it. -/
theorem entriesAt_on_way (hf : front <+: place)
    (h : ∀ entries, at? front tree ≠ some (directory entries)) : entriesAt place tree = [] := by
  refine entriesAt_of_not_directory fun entries hat => ?_
  obtain ⟨above, habove⟩ := at?_of_prefix hat hf
  exact h above habove

/-- A change that neither takes nor gives a directory leaves all directories as they are that it does
not happen in or below. -/
theorem AgreeOutside.entriesAt_eq {s t : FileTree} {changed : List String}
    (h : AgreeOutside changed s t) (hs : ∀ entries, at? changed s ≠ some (directory entries))
    (ht : ∀ entries, at? changed t ≠ some (directory entries))
    (hp : ¬ place <+: changed.dropLast) : entriesAt place s = entriesAt place t := by
  by_cases hc : changed <+: place
  · rw [entriesAt_on_way hc hs, entriesAt_on_way hc ht]
  · have hapart : ¬ place <+: changed := by
      intro hpc
      obtain ⟨back, rfl⟩ := hpc
      by_cases hb : back = []
      · subst hb
        rw [List.append_nil] at hc
        exact hc List.prefix_rfl
      · rw [List.dropLast_append_of_ne_nil hb] at hp
        exact hp (List.prefix_append _ _)
    rw [entriesAt, entriesAt, h.at?_of_apart ⟨hc, hapart⟩]

/-! ### Making one directory -/

theorem ensureDirectory_directory_cons {name : String} {rest : List String} :
    ensureDirectory (name :: rest) (directory entries) = some tree' ↔
      ∃ entry, ensureDirectory rest (under name entries) = some entry ∧
        tree' = directory (Keyed.put name entry entries) := by
  rw [ensureDirectory, Option.map_eq_some_iff]
  exact exists_congr fun entry => and_congr_right fun _ => eq_comm

theorem exists_directory_of_ensureDirectory (h : ensureDirectory place tree = some tree') :
    (∃ entries, tree = directory entries) ∧ ∃ entries, tree' = directory entries := by
  cases tree with
  | file content =>
      cases place <;> cases h
  | directory entries =>
      refine ⟨⟨entries, rfl⟩, ?_⟩
      cases place with
      | nil => exact ⟨entries, (Option.some.inj h).symm⟩
      | cons name rest =>
          obtain ⟨entry, -, rfl⟩ := ensureDirectory_directory_cons.1 h
          exact ⟨_, rfl⟩

/-- On the way to a directory that is made, the rest of the way is made. -/
theorem at?_of_ensureDirectory_append (h : ensureDirectory (front ++ back) tree = some tree') :
    ∃ entry, ensureDirectory back ((at? front tree).getD (.directory [])) = some entry ∧
      at? front tree' = some entry := by
  induction front generalizing tree tree' with
  | nil => exact ⟨tree', h, rfl⟩
  | cons name rest ih =>
      obtain ⟨⟨entries, rfl⟩, -⟩ := exists_directory_of_ensureDirectory h
      obtain ⟨entry, he, rfl⟩ := ensureDirectory_directory_cons.1 h
      obtain ⟨below, hbelow, hat⟩ := ih he
      refine ⟨below, ?_, ?_⟩
      · by_cases hr : rest = []
        · subst hr
          rwa [at?_singleton]
        · rwa [at?_cons_eq_under entries name hr]
      · rw [at?_directory_cons, Keyed.lookup_put_self]
        exact hat

theorem at?_ensureDirectory_self (h : ensureDirectory place tree = some tree') :
    ∃ entries, at? place tree' = some (directory entries) := by
  rw [← List.append_nil place] at h
  obtain ⟨entry, he, hat⟩ := at?_of_ensureDirectory_append h
  obtain ⟨-, entries, rfl⟩ := exists_directory_of_ensureDirectory he
  exact ⟨entries, hat⟩

/-- A directory stays a directory when others are made. -/
theorem exists_directory_ensureDirectory (h : ensureDirectory place tree = some tree')
    (hat : at? front tree = some (directory entries)) :
    ∃ entries', at? front tree' = some (directory entries') := by
  by_cases hf : front <+: place
  · obtain ⟨back, rfl⟩ := hf
    obtain ⟨entry, he, hat'⟩ := at?_of_ensureDirectory_append h
    obtain ⟨-, entries', rfl⟩ := exists_directory_of_ensureDirectory he
    exact ⟨entries', hat'⟩
  · exact ⟨entries, (at?_ensureDirectory h hf).trans hat⟩

/-- Making a directory that is there changes nothing. -/
theorem ensureDirectory_eq_self (hw : tree.wellFormed = true)
    (hat : at? place tree = some (directory entries)) :
    ensureDirectory place tree = some tree := by
  induction place generalizing tree with
  | nil =>
      cases hat
      rfl
  | cons name rest ih =>
      cases tree with
      | file content => cases hat
      | directory present =>
          obtain ⟨entry, hl, hat⟩ := Option.bind_eq_some_iff.1 hat
          have hl : present.lookup name = some entry := hl
          refine ensureDirectory_directory_cons.2 ⟨entry, ?_, ?_⟩
          · rw [under, hl]
            exact ih (wellFormed_of_lookup hw hl).2 hat
          · rw [(wellFormed_directory.1 hw).1.put_of_lookup hl]

theorem wellFormed_ensureDirectory (h : ensureDirectory place tree = some tree')
    (hw : tree.wellFormed = true) (hplace : ∀ name ∈ place, isEntryName name = true) :
    tree'.wellFormed = true := by
  induction place generalizing tree tree' with
  | nil =>
      obtain ⟨⟨entries, rfl⟩, -⟩ := exists_directory_of_ensureDirectory h
      cases h
      exact hw
  | cons name rest ih =>
      obtain ⟨⟨entries, rfl⟩, -⟩ := exists_directory_of_ensureDirectory h
      obtain ⟨entry, he, rfl⟩ := ensureDirectory_directory_cons.1 h
      refine wellFormed_put hw (hplace name List.mem_cons_self) ?_
      exact ih he (wellFormed_under hw name) fun other ho => hplace other (List.mem_cons_of_mem _ ho)

/-- A directory keeps its entries when a directory is made that is not below it, or is there. -/
theorem entriesAt_ensureDirectory (hw : (directory (entriesAt place tree)).wellFormed = true)
    {made : List String} (h : ensureDirectory made tree = some tree')
    (hthere : ∀ back, made = place ++ back → back ≠ [] →
      ∃ below, at? back (directory (entriesAt place tree)) = some (directory below)) :
    entriesAt place tree' = entriesAt place tree := by
  by_cases hp : place <+: made
  · obtain ⟨back, rfl⟩ := hp
    obtain ⟨entry, he, hat⟩ := at?_of_ensureDirectory_append h
    by_cases hb : back = []
    · subst hb
      rw [entriesAt, hat, entriesAt]
      cases hplace : at? place tree with
      | none =>
          rw [hplace] at he
          cases he
          rfl
      | some present =>
          rw [hplace] at he
          obtain ⟨⟨entries, hdir⟩, -⟩ := exists_directory_of_ensureDirectory he
          rw [Option.getD_some] at hdir
          subst hdir
          cases he
          rfl
    · obtain ⟨below, hbelow⟩ := hthere back rfl hb
      obtain ⟨entries, hdir⟩ : ∃ entries, at? place tree = some (directory entries) := by
        rw [← at?_append_of_ne_nil hb] at hbelow
        exact exists_directory_of_append hb hbelow
      rw [entriesAt_of_directory hdir] at hw hbelow ⊢
      rw [hdir, Option.getD_some, ensureDirectory_eq_self hw hbelow] at he
      cases he
      exact entriesAt_of_directory hat
  · rw [entriesAt, at?_ensureDirectory h hp, entriesAt]

/-! ### Making all directories on a way -/

variable {passed : List String} {path : Path}

/-- A way can be gone on with when the next directory on it is made. -/
theorem passable_ensureDirectory {name : String} (hp : Passable tree passed)
    (h : ensureDirectory (Path.placeOf (passed ++ [name])) tree = some tree') :
    Passable tree' (passed ++ [name]) := by
  refine passable_concat.2 ⟨fun front hfront => ?_, at?_ensureDirectory_self h⟩
  obtain ⟨entries, hat⟩ := hp front hfront
  exact exists_directory_ensureDirectory h hat

/-- Directories that are made on a way can be passed through. -/
theorem passable_makeAlong (h : makeAlong passed names tree = some tree')
    (hp : Passable tree passed) : Passable tree' (passed ++ names) := by
  induction names generalizing passed tree with
  | nil =>
      cases h
      rwa [List.append_nil]
  | cons name rest ih =>
      obtain ⟨middle, hm, h⟩ := Option.bind_eq_some_iff.1 h
      rw [List.append_cons]
      exact ih h (passable_ensureDirectory hp hm)

theorem passable_root (entries : List (String × FileTree)) : Passable (directory entries) [] := by
  intro front hfront
  obtain rfl := List.prefix_nil.1 hfront
  exact ⟨entries, rfl⟩

theorem passable_makeDirectories [Host] (h : (directory entries).makeDirectories path = some tree') :
    Passable tree' path.way := passable_makeAlong h (passable_root entries)

/-- The names only enter directories below a place that are among the entries there. -/
def EntersOnly (entries : List (String × FileTree)) (place names : List String) : Prop :=
  ∀ front back, front <+: names → Path.placeOf front = place ++ back → back ≠ [] →
    ∃ below, at? back (directory entries) = some (directory below)

theorem entriesAt_makeAlong (hw : (directory (entriesAt place tree)).wellFormed = true)
    (h : makeAlong passed names tree = some tree')
    (henters : EntersOnly (entriesAt place tree) place (passed ++ names)) :
    entriesAt place tree' = entriesAt place tree := by
  induction names generalizing passed tree with
  | nil =>
      cases h
      rfl
  | cons name rest ih =>
      obtain ⟨middle, hm, h⟩ := Option.bind_eq_some_iff.1 h
      rw [List.append_cons] at henters
      have hmiddle : entriesAt place middle = entriesAt place tree :=
        entriesAt_ensureDirectory hw hm fun back =>
          henters (passed ++ [name]) back (List.prefix_append _ _)
      rw [← hmiddle] at hw henters ⊢
      exact ih hw h henters

theorem wellFormed_makeAlong (h : makeAlong passed names tree = some tree')
    (hw : tree.wellFormed = true)
    (hnames : ∀ name ∈ passed ++ names, name = ".." ∨ isEntryName name = true) :
    tree'.wellFormed = true := by
  induction names generalizing passed tree with
  | nil =>
      cases h
      exact hw
  | cons name rest ih =>
      obtain ⟨middle, hm, h⟩ := Option.bind_eq_some_iff.1 h
      rw [List.append_cons] at hnames
      refine ih h (wellFormed_ensureDirectory hm hw fun other ho => ?_) hnames
      have hother := hnames other (List.mem_append_left _ (Path.mem_of_mem_placeOf ho))
      exact hother.resolve_left fun hdots => Path.dots_not_mem_placeOf _ (hdots ▸ ho)

/-! ### Writing and removing files -/

variable {bytes : ByteArray}

/-- Once the directories above a path are there, a path that leads to no directory has a name of its own in
the directory above it. -/
theorem of_not_isDirectoryAt [Host] (hpass : Passable tree path.parent.way)
    (hfree : tree.isDirectoryAt path = false) :
    path.resolve.parts = path.parent.resolve.parts ++ [path.name] ∧
      ∀ entries, tree.at? path.resolve.parts ≠ some (directory entries) := by
  have hnot : Passable tree path.way.dropLast →
      ∀ entries, tree.at? path.resolve.parts ≠ some (directory entries) := by
    intro hway entries hat
    rw [← find?_eq_at?_resolve hway] at hat
    rw [isDirectoryAt, hat] at hfree
    cases hfree
  by_cases hparts : path.parts = []
  · rw [Path.parent_eq_self hparts] at hpass
    obtain ⟨entries, hat⟩ := hpass.directory
    rw [← Path.parts_resolve] at hat
    exact absurd hat (hnot (hpass.of_prefix (List.dropLast_prefix _)) entries)
  · have hway := Path.way_eq_concat hparts
    have hnot := hnot (by rwa [hway, List.dropLast_concat])
    have hname : path.name ≠ ".." := by
      intro hdots
      obtain ⟨entries, hat⟩ := hpass.directory
      obtain ⟨entries', hat'⟩ := at?_of_prefix hat (List.dropLast_prefix _)
      rw [← Path.placeOf_concat_dots, ← hdots, ← hway, ← Path.parts_resolve] at hat'
      exact hnot entries' hat'
    refine ⟨?_, hnot⟩
    rw [Path.parts_resolve, hway, Path.placeOf_concat hname, Path.parts_resolve]

/-- A file is only written where no directory stands. -/
theorem of_writeFile [Host] (hpass : Passable tree path.parent.way)
    (h : tree.writeFile path bytes = some tree') :
    path.resolve.parts = path.parent.resolve.parts ++ [path.name] ∧
      (∀ entries, tree.at? path.resolve.parts ≠ some (directory entries)) ∧
      insert (.file bytes) path.resolve.parts tree = some tree' := by
  rw [writeFile] at h
  split at h
  · cases h
  · rename_i hfree
    obtain ⟨hparts, hnot⟩ := of_not_isDirectoryAt hpass (Bool.eq_false_iff.2 hfree)
    exact ⟨hparts, hnot, h⟩

/-- Anything can be put into a directory that is there. -/
theorem exists_insert {front : List String} (h : at? front tree = some (directory entries))
    (new : FileTree) (name : String) : ∃ tree', insert new (front ++ [name]) tree = some tree' := by
  induction front generalizing tree with
  | nil =>
      cases h
      exact ⟨_, insert_directory_cons.2 ⟨new, rfl, rfl⟩⟩
  | cons first rest ih =>
      cases tree with
      | file content => cases h
      | directory present =>
          rw [at?_directory_cons] at h
          obtain ⟨entry, hl, hat⟩ := Option.bind_eq_some_iff.1 h
          obtain ⟨entry', hentry⟩ := ih hat
          refine ⟨_, insert_directory_cons.2 ⟨entry', ?_, rfl⟩⟩
          rwa [under, hl]

/-- Once the directories above a path are there, a file can be written unless a directory is there. -/
theorem exists_writeFile [Host] (hpass : Passable tree path.parent.way)
    (hfree : tree.isDirectoryAt path = false) (bytes : ByteArray) :
    ∃ tree', tree.writeFile path bytes = some tree' := by
  obtain ⟨hparts, -⟩ := of_not_isDirectoryAt hpass hfree
  obtain ⟨entries, hat⟩ := hpass.directory
  rw [← Path.parts_resolve] at hat
  rw [writeFile, hfree, hparts]
  exact exists_insert hat _ _

/-- A file that is written blocks no way that can be passed. -/
theorem passable_insert (hpass : Passable tree names)
    (hfree : ∀ entries, tree.at? place ≠ some (directory entries))
    {new : FileTree} (h : insert new place tree = some tree') : Passable tree' names := by
  intro front hfront
  obtain ⟨entries, hat⟩ := hpass front hfront
  refine exists_directory_insert h hat fun hp => ?_
  obtain ⟨entries', hat'⟩ := at?_of_prefix hat hp
  exact hfree entries' hat'

theorem passable_erase (hpass : Passable tree names)
    (hfree : ∀ entries, tree.at? place ≠ some (directory entries)) :
    Passable (erase place tree) names := by
  intro front hfront
  obtain ⟨entries, hat⟩ := hpass front hfront
  refine exists_directory_erase hat fun hp => ?_
  obtain ⟨entries', hat'⟩ := at?_of_prefix hat hp
  exact hfree entries' hat'

/-- Writing a file, once the directories above it are there, leaves all directories alone that it is
not written into. -/
theorem keeps_writeFile [Host] (hpass : Passable tree path.parent.way)
    (hout : ¬ place <+: path.parent.resolve.parts)
    (h : tree.writeFile path bytes = some tree') :
    Passable tree' path.parent.way ∧ entriesAt place tree' = entriesAt place tree := by
  obtain ⟨hparts, hfree, hinsert⟩ := of_writeFile hpass h
  refine ⟨passable_insert hpass hfree hinsert, ?_⟩
  refine ((agreeOutside_insert hinsert).entriesAt_eq hfree (fun entries hat => ?_) ?_).symm
  · rw [at?_insert_self hinsert] at hat
    cases hat
  · rwa [hparts, List.dropLast_concat]

/-- So does taking the file away again. -/
theorem keeps_removeAt [Host] (hpass : Passable tree path.parent.way)
    (hout : ¬ place <+: path.parent.resolve.parts)
    (h : tree.writeFile path bytes = some tree') :
    Passable (tree'.removeAt path) path.parent.way ∧
      entriesAt place (tree'.removeAt path) = entriesAt place tree' := by
  obtain ⟨hparts, hfree, hinsert⟩ := of_writeFile hpass h
  have hfile : ∀ entries, tree'.at? path.resolve.parts ≠ some (directory entries) := by
    intro entries hat
    rw [at?_insert_self hinsert] at hat
    cases hat
  refine ⟨passable_erase (passable_insert hpass hfree hinsert) hfile, ?_⟩
  refine ((agreeOutside_erase path.resolve.parts tree').entriesAt_eq hfile
    (fun entries hat => ?_) ?_).symm
  · rw [at?_erase_self (by simp [hparts])] at hat
    cases hat
  · rwa [hparts, List.dropLast_concat]

/-! ### Trees that are files -/

theorem erase_file (place : List String) (bytes : ByteArray) :
    erase place (.file bytes) = .file bytes := by
  cases place with
  | nil => rfl
  | cons name rest => cases rest <;> rfl

theorem exists_file_of_writeFile [Host] {other : ByteArray}
    (h : (file other).writeFile path bytes = some tree') : ∃ content, tree' = file content := by
  rw [writeFile] at h
  split at h
  · cases h
  · cases hparts : path.resolve.parts with
    | nil =>
        rw [hparts] at h
        exact ⟨bytes, (Option.some.inj h).symm⟩
    | cons name rest =>
        rw [hparts] at h
        cases h

theorem makeAlong_file {other : ByteArray}
    (h : makeAlong passed names (file other) = some tree') : tree' = file other := by
  cases names with
  | nil => exact (Option.some.inj h).symm
  | cons name rest =>
      obtain ⟨middle, hm, -⟩ := Option.bind_eq_some_iff.1 h
      obtain ⟨⟨entries, hdir⟩, -⟩ := exists_directory_of_ensureDirectory hm
      cases hdir

end FileTree

namespace Path

/-! ### Names of texts -/

/-- Every name of the path is one that the text of a path can have. -/
def HasTextNames (path : Path) : Prop :=
  ∀ name ∈ path.parts, name = ".." ∨ FileTree.isEntryName name = true

theorem slash_not_mem_of_mem_splitOn {text piece : List Char} (h : piece ∈ Text.splitOn '/' text) :
    '/' ∉ piece := by
  induction text generalizing piece with
  | nil =>
      rw [List.mem_singleton.1 h]
      exact List.not_mem_nil
  | cons c rest ih =>
      rw [Text.splitOn] at h
      split at h
      · rcases List.mem_cons.1 h with rfl | h
        · exact List.not_mem_nil
        · exact ih h
      · rename_i hc
        rw [beq_iff_eq] at hc
        cases hpieces : Text.splitOn '/' rest with
        | nil =>
            rw [hpieces, List.mem_singleton] at h
            subst h
            simpa using Ne.symm hc
        | cons first pieces =>
            rw [hpieces] at ih h
            rcases List.mem_cons.1 h with rfl | h
            · rw [List.mem_cons, not_or]
              exact ⟨Ne.symm hc, ih List.mem_cons_self⟩
            · exact ih (List.mem_cons_of_mem _ h)

theorem hasTextNames_ofString (text : String) : (ofString text).HasTextNames := by
  intro name hn
  obtain ⟨hn, hidle⟩ := List.mem_filter.1 hn
  obtain ⟨piece, hpiece, rfl⟩ := List.mem_map.1 hn
  by_cases hdots : String.ofList piece = ".."
  · exact Or.inl hdots
  · right
    have hslash := slash_not_mem_of_mem_splitOn hpiece
    simp only [isIdle, Bool.not_eq_true', Bool.or_eq_false_iff, beq_eq_false_iff_ne] at hidle
    rw [FileTree.isEntryName_iff, String.toList_ofList]
    exact ⟨hidle.1, hidle.2, hdots, hslash⟩

theorem HasTextNames.join {path other : Path} (h : path.HasTextNames) (ho : other.HasTextNames) :
    (path.join other).HasTextNames := by
  rw [Path.join]
  split
  · exact ho
  · intro name hn
    rcases List.mem_append.1 hn with hn | hn
    · exact h name hn
    · exact ho name hn

theorem HasTextNames.parent {path : Path} (h : path.HasTextNames) : path.parent.HasTextNames :=
  fun name hn => h name (List.dropLast_subset _ hn)

theorem HasTextNames.way [Host] {path : Path} (h : path.HasTextNames) :
    ∀ name ∈ path.way, name = ".." ∨ FileTree.isEntryName name = true := by
  intro name hn
  rcases mem_way hn with hn | hn
  · exact Or.inr (isEntryName_of_mem_workingDirectory hn)
  · exact h name hn

theorem HasTextNames.resolve [Host] {path : Path} (h : path.HasTextNames) :
    ∀ name ∈ path.resolve.parts, FileTree.isEntryName name = true := by
  intro name hn
  have hname := h.way name (mem_of_mem_placeOf (parts_resolve path ▸ hn))
  exact hname.resolve_left fun hdots => dots_not_mem_resolve path (hdots ▸ hn)

end Path

namespace AtomicWrite

open FileTree

/-! ### Writing a file in one step -/

variable {destination path : Path} {files : FileTree} {place : List String}

theorem parent_of_written (h : IsTemporary destination path ∨ path = destination) :
    path.parent = destination.parent := by
  rcases h with h | rfl
  · exact h.parent
  · rfl

/-- A root that is a file stays one. -/
theorem exists_file_write [Host] (faults : Faults) (destination : Path) (content bytes : ByteArray) :
    ∃ other, (write faults destination content (.file bytes)).1 = .file other := by
  have h := write_induction (Q := fun tree => ∃ other, tree = .file other) faults destination content
    (.file bytes) ?_ ?_ ?_
  · rcases h with ⟨front, -, halong⟩ | h
    · exact ⟨bytes, makeAlong_file halong⟩
    · exact h
  · intro made hmade
    exact ⟨bytes, makeAlong_file hmade⟩
  · intro path written tree tree' _ htree hwrite
    obtain ⟨other, rfl⟩ := htree
    exact exists_file_of_writeFile hwrite
  · intro path written tree tree' _ htree hwrite
    obtain ⟨other, rfl⟩ := htree
    obtain ⟨content, rfl⟩ := exists_file_of_writeFile hwrite
    exact ⟨content, erase_file _ content⟩

/-- A write leaves the entries of a directory alone that its destination does not lead into. -/
theorem entriesAt_write [Host] (faults : Faults) (content : ByteArray)
    (hw : (FileTree.directory (files.entriesAt place)).wellFormed = true)
    (hout : ¬ place <+: destination.parent.resolve.parts)
    (henters : EntersOnly (files.entriesAt place) place destination.parent.way) :
    (write faults destination content files).1.entriesAt place = files.entriesAt place := by
  cases files with
  | file bytes =>
      obtain ⟨other, h⟩ := exists_file_write faults destination content bytes
      rw [h]
      cases place <;> rfl
  | directory entries =>
      have h := write_induction (Q := fun tree => Passable tree destination.parent.way ∧
        tree.entriesAt place = (FileTree.directory entries).entriesAt place) faults destination
        content (.directory entries) ?_ ?_ ?_
      · rcases h with ⟨front, hfront, halong⟩ | ⟨-, h⟩
        · exact entriesAt_makeAlong hw halong fun first back hfirst =>
            henters first back (hfirst.trans hfront)
        · exact h
      · intro made hmade
        exact ⟨passable_makeDirectories hmade, entriesAt_makeAlong hw hmade henters⟩
      · intro path bytes tree tree' hpath htree hwrite
        obtain ⟨hpass, hentries⟩ := htree
        rw [← parent_of_written hpath] at hpass hout ⊢
        obtain ⟨hpass', hentries'⟩ := keeps_writeFile hpass hout hwrite
        exact ⟨hpass', hentries'.trans hentries⟩
      · intro path bytes tree tree' hpath htree hwrite
        obtain ⟨hpass, hentries⟩ := htree
        rw [← parent_of_written (Or.inl hpath)] at hpass hout ⊢
        obtain ⟨-, hentries'⟩ := keeps_writeFile hpass hout hwrite
        obtain ⟨hpass'', hentries''⟩ := keeps_removeAt hpass hout hwrite
        exact ⟨hpass'', hentries''.trans (hentries'.trans hentries)⟩

theorem isEntryName_temporaryName {name : String} (h : '/' ∉ name.toList) (taken : List String) :
    FileTree.isEntryName (temporaryName taken name) = true := by
  have hlength : 5 ≤ (temporaryName taken name).toList.length := by
    simp [temporaryName]
    omega
  have hne : ∀ short : String, short.toList.length < 5 → temporaryName taken name ≠ short := by
    intro short hshort heq
    rw [heq] at hlength
    omega
  refine isEntryName_iff.2 ⟨hne "" (by decide), hne "." (by decide), hne ".." (by decide), ?_⟩
  simp [temporaryName, h]

theorem hasTextNames_of_written (hnames : destination.HasTextNames)
    (h : IsTemporary destination path ∨ path = destination) : path.HasTextNames := by
  rcases h with ⟨taken, rfl⟩ | rfl
  · have hslash : '/' ∉ destination.name.toList := by
      rw [Path.name]
      cases hlast : destination.parts.getLast? with
      | none => exact List.not_mem_nil
      | some last =>
          rw [Option.getD_some]
          rcases hnames last (List.mem_of_getLast? hlast) with rfl | hname
          · decide
          · exact (isEntryName_iff.1 hname).2.2.2
    intro name hn
    rcases List.mem_append.1 hn with hn | hn
    · exact hnames.parent name hn
    · rw [List.mem_singleton.1 hn]
      exact Or.inr (isEntryName_temporaryName hslash taken)
  · exact hnames

/-- A write with a destination that can be written down leaves files as file systems have them. -/
theorem wellFormed_write [Host] (faults : Faults) (content : ByteArray)
    (hnames : destination.HasTextNames) (hw : files.wellFormed = true) :
    (write faults destination content files).1.wellFormed = true := by
  have hinsert : ∀ (path : Path) bytes (tree tree' : FileTree),
      IsTemporary destination path ∨ path = destination → tree.wellFormed = true →
      tree.writeFile path bytes = some tree' → tree'.wellFormed = true := by
    intro path bytes tree tree' hpath htree hwrite
    rw [writeFile] at hwrite
    split at hwrite
    · cases hwrite
    · exact wellFormed_insert hwrite htree rfl (hasTextNames_of_written hnames hpath).resolve
  have h := write_induction (Q := fun tree => tree.wellFormed = true) faults destination content
    files ?_ hinsert ?_
  · rcases h with ⟨front, hfront, halong⟩ | h
    · exact wellFormed_makeAlong halong hw fun name hname => hnames.parent.way name (hfront.subset hname)
    · exact h
  · intro made hmade
    exact wellFormed_makeAlong hmade hw hnames.parent.way
  · intro path bytes tree tree' hpath htree hwrite
    exact wellFormed_erase _ (hinsert path bytes tree tree' (Or.inl hpath) htree hwrite)

end AtomicWrite

end RouteBinder.FileSystem
