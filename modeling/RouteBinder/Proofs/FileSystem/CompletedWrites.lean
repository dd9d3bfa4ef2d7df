import RouteBinder.Proofs.FileSystem.Writes

/-!
# RouteBinder.Proofs.FileSystem.CompletedWrites

**What a completed write leaves behind.** The temporary file has a name that nothing in its directory
has, so taking it away again takes away nothing else. Hence, after a write that is completed,

* the destination has the content (`AtomicWrite.content?_write_self`); and
* every other file has the content that it had (`AtomicWrite.content?_write_of_ne`).
-/

namespace RouteBinder.FileSystem

namespace FileTree

variable {tree tree' : FileTree} {place names passed : List String} {path : Path}
  {content : ByteArray}

/-! ### Files stay -/

/-- A file stays when directories are made. -/
theorem at?_file_ensureDirectory {made : List String} (h : ensureDirectory made tree = some tree')
    (hat : at? place tree = some (file content)) : at? place tree' = some (file content) := by
  by_cases hp : place <+: made
  -- No directory can be made on a way through a file.
  · obtain ⟨back, rfl⟩ := hp
    obtain ⟨entry, he, -⟩ := at?_of_ensureDirectory_append h
    rw [hat, Option.getD_some] at he
    obtain ⟨⟨entries, hdir⟩, -⟩ := exists_directory_of_ensureDirectory he
    cases hdir
  · rw [at?_ensureDirectory h hp, hat]

theorem at?_file_makeAlong (h : makeAlong passed names tree = some tree')
    (hat : at? place tree = some (file content)) : at? place tree' = some (file content) := by
  induction names generalizing passed tree with
  | nil =>
      cases h
      exact hat
  | cons name rest ih =>
      obtain ⟨middle, hm, h⟩ := Option.bind_eq_some_iff.1 h
      exact ih h (at?_file_ensureDirectory hm hat)

/-- Directories stay directories when others are made. -/
theorem exists_directory_makeAlong {entries : List (String × FileTree)}
    (h : makeAlong passed names tree = some tree') (hat : at? place tree = some (directory entries)) :
    ∃ entries', at? place tree' = some (directory entries') := by
  induction names generalizing passed tree entries with
  | nil =>
      cases h
      exact ⟨entries, hat⟩
  | cons name rest ih =>
      obtain ⟨middle, hm, h⟩ := Option.bind_eq_some_iff.1 h
      obtain ⟨entries', hat'⟩ := exists_directory_ensureDirectory hm hat
      exact ih h hat'

/-- Ways that can be passed still can be when directories are made. -/
theorem passable_of_makeAlong {way : List String} (h : makeAlong passed names tree = some tree')
    (hpass : Passable tree way) : Passable tree' way := by
  intro front hfront
  obtain ⟨entries, hat⟩ := hpass front hfront
  exact exists_directory_makeAlong h hat

theorem AgreeOutside.trans {s t u : FileTree} (h : AgreeOutside place s t)
    (h' : AgreeOutside place t u) : AgreeOutside place s u := by
  induction place generalizing s t u with
  | nil => trivial
  | cons name rest ih =>
      rcases h.directory_or_eq with ⟨entries, entries', rfl, rfl⟩ | ⟨rfl, -⟩
      · rcases h'.directory_or_eq with ⟨others, others', heq, rfl⟩ | ⟨rfl, -⟩
        · cases heq
          exact ⟨h.1.trans h'.1, ih h.2 h'.2⟩
        · exact h
      · exact h'

/-- Where nothing stands, trees that agree outside that place have no file that the other lacks. -/
theorem AgreeOutside.at?_file_of_none {s t : FileTree} {other : List String}
    (h : AgreeOutside place s t) (ht : at? place t = none)
    (hat : at? other t = some (file content)) : at? other s = some (file content) := by
  refine h.at?_file (fun hp => ?_) hat
  obtain ⟨back, rfl⟩ := hp
  rw [FileTree.at?_append, ht] at hat
  cases hat

/-! ### Contents -/

/-- A walk that ends somewhere only goes through directories. -/
theorem StandsIn.passable {root here result : FileTree} {seen : List String}
    {above : List FileTree} (h : StandsIn root seen above here)
    (hw : FileTree.walk above here names = some result) {front back : List String}
    (hnames : names = front ++ back) (hback : back ≠ []) :
    ∃ entries, root.at? (front.foldl (Path.walkBack true) seen).reverse =
      some (directory entries) := by
  induction names generalizing seen above here front with
  | nil => exact absurd (List.append_eq_nil_iff.1 hnames.symm).2 hback
  | cons name rest ih =>
      cases here with
      | file content => cases hw
      | directory entries =>
          cases front with
          | nil => exact ⟨entries, h.at?⟩
          | cons first front =>
              obtain ⟨rfl, hrest⟩ := List.cons_eq_cons.1 hnames
              rw [List.foldl_cons]
              by_cases hname : name = ".."
              · subst hname
                obtain ⟨seen', above', here', h', hseen, hwalk⟩ := h.up rest
                rw [hseen]
                exact ih h' (hwalk ▸ hw) hrest
              · rw [walk_cons_of_ne hname] at hw
                rw [Path.walkBack_of_ne hname]
                cases hl : entries.lookup name with
                | none =>
                    rw [hl] at hw
                    cases hw
                | some entry =>
                    rw [hl] at hw
                    exact ih (h.entry hname hl) hw hrest

/-- Below a root that is a directory, everything that is found can be reached. -/
theorem passable_of_find? [Host] {entries : List (String × FileTree)} {result : FileTree}
    (h : (directory entries).find? path = some result) :
    Passable (directory entries) path.way.dropLast := by
  intro front hfront
  by_cases hway : path.way = []
  · rw [hway] at hfront
    obtain rfl := List.prefix_nil.1 hfront
    exact ⟨entries, rfl⟩
  · obtain ⟨back, hback⟩ := hfront
    have hparts : path.way = front ++ (back ++ [path.way.getLast hway]) := by
      rw [← List.append_assoc, hback]
      exact (List.dropLast_append_getLast hway).symm
    exact StandsIn.root.passable h hparts (List.concat_ne_nil _ _)

/-- What a path with passable directories on its way is read as. -/
theorem content?_eq_some [Host] (hpass : Passable tree path.way.dropLast) :
    tree.content? path = some content ↔ tree.at? path.resolve.parts = some (file content) := by
  rw [content?, find?_eq_at?_resolve hpass]
  split
  · rename_i other h
    rw [h]
    simp
  · rename_i h
    exact ⟨nofun, fun hat => absurd hat (h content)⟩

end FileTree

/-- The way to a path that has a place of its own in the directory above it. -/
theorem Path.way_of_resolve [Host] {path : Path}
    (h : path.resolve.parts = path.parent.resolve.parts ++ [path.name]) :
    path.way = path.parent.way ++ [path.name] := by
  refine Path.way_eq_concat fun hnil => ?_
  have hlength := congrArg List.length h
  rw [Path.parent_eq_self hnil, List.length_append, List.length_singleton] at hlength
  omega

theorem Path.dropLast_way [Host] {path : Path}
    (h : path.resolve.parts = path.parent.resolve.parts ++ [path.name]) :
    path.way.dropLast = path.parent.way := by
  rw [Path.way_of_resolve h, List.dropLast_concat]

namespace AtomicWrite

open FileTree

variable {faults : Faults} {destination other : Path} {content bytes : ByteArray}
  {files : FileTree}

/-! ### The temporary file -/

theorem length_le_longest {name : String} {names : List String} (h : name ∈ names) :
    name.length ≤ longest names := by
  have hmem : name.length ∈ names.map String.length := List.mem_map_of_mem h
  have hle : ∀ (lengths : List Nat) (start : Nat), start ≤ lengths.foldl max start ∧
      ∀ n ∈ lengths, n ≤ lengths.foldl max start := by
    intro lengths
    induction lengths with
    | nil => exact fun start => ⟨le_rfl, fun n hn => absurd hn List.not_mem_nil⟩
    | cons first rest ih =>
        intro start
        obtain ⟨hstart, hrest⟩ := ih (max start first)
        refine ⟨(le_max_left _ _).trans hstart, fun n hn => ?_⟩
        rcases List.mem_cons.1 hn with rfl | hn
        · exact (le_max_right _ _).trans hstart
        · exact hrest n hn
  exact (hle _ 0).2 _ hmem

/-- No taken name is as long as that of the temporary file. -/
theorem temporaryName_not_mem (taken : List String) (name : String) :
    temporaryName taken name ∉ taken := by
  intro h
  have hle := length_le_longest h
  rw [← String.length_toList] at hle
  simp [temporaryName] at hle
  omega

variable [Host]

theorem way_temporaryFor (files : FileTree) (destination : Path) :
    (temporaryFor files destination).way =
      destination.parent.way ++ [(temporaryFor files destination).name] := by
  have hparts : (temporaryFor files destination).parts ≠ [] := by
    obtain ⟨taken, htemp⟩ := isTemporary_temporaryFor files destination
    rw [htemp]
    exact List.concat_ne_nil _ _
  rw [Path.way_eq_concat hparts, (isTemporary_temporaryFor files destination).parent]

theorem resolve_temporaryFor (files : FileTree) (destination : Path) :
    (temporaryFor files destination).resolve.parts =
      destination.parent.resolve.parts ++ [(temporaryFor files destination).name] := by
  have hname : (temporaryFor files destination).name ≠ ".." := by
    obtain ⟨taken, htemp⟩ := isTemporary_temporaryFor files destination
    rw [htemp, Path.name, Path.child, List.getLast?_concat]
    exact temporaryName_ne_dots _ _
  rw [Path.parts_resolve, way_temporaryFor, Path.placeOf_concat hname, Path.parts_resolve]

/-- Nothing stands in the place of the temporary file. -/
theorem at?_temporaryFor (hpass : Passable files destination.parent.way) :
    files.at? (temporaryFor files destination).resolve.parts = none := by
  obtain ⟨entries, hdir⟩ := hpass.directory
  rw [← Path.parts_resolve] at hdir
  have hfind : files.find? destination.parent = some (.directory entries) := by
    rw [find?_eq_at?_resolve (hpass.of_prefix (List.dropLast_prefix _)), hdir]
  have hname : (temporaryFor files destination).name =
      temporaryName (entries.map (·.1)) destination.name := by
    rw [temporaryFor, hfind, Path.name, Path.child, List.getLast?_concat]
    rfl
  rw [resolve_temporaryFor, at?_append, hdir, Option.bind_some, at?_singleton, hname]
  cases hl : entries.lookup (temporaryName (entries.map (·.1)) destination.name) with
  | none => rfl
  | some entry =>
      have hmem := List.mem_map_of_mem (f := (·.1)) (Keyed.mem_of_lookup hl)
      exact absurd hmem (temporaryName_not_mem _ _)

/-! ### The steps of a completed write -/

/-- A write that is completed made the directories above the destination, wrote the temporary file
twice, and moved it. -/
theorem exists_of_write (h : (write faults destination content files).2 = true) :
    ∃ made created filled, files.makeDirectories destination.parent = some made ∧
      made.writeFile (temporaryFor made destination) .empty = some created ∧
      created.writeFile (temporaryFor made destination) content = some filled ∧
      moveFile filled (temporaryFor made destination) destination =
        some (write faults destination content files).1 := by
  revert h
  unfold write
  obtain ⟨front, -, halong, hall⟩ := exists_makeAlong_makeParents faults []
    (Path.workingDirectory.join destination.parent).parts files
  cases hmade : makeParents faults [] (Path.workingDirectory.join destination.parent).parts files with
  | mk made complete =>
  rw [hmade] at halong hall
  cases complete with
  | false => exact nofun
  | true =>
      rw [hall rfl] at halong
      dsimp only
      cases hcreate : faults.guard .createTemporary
          (made.writeFile (temporaryFor made destination) .empty) with
      | none => exact nofun
      | some created =>
          dsimp only
          split
          · exact nofun
          · rename_i written hfinish
            intro _
            obtain ⟨filled, hfill, hfinish⟩ := Option.bind_eq_some_iff.1 hfinish
            obtain ⟨closed, hclose, hfinish⟩ := Option.bind_eq_some_iff.1 hfinish
            obtain rfl := Option.some.inj (Faults.eq_of_guard hclose)
            exact ⟨made, created, filled, halong, Faults.eq_of_guard hcreate,
              Faults.eq_of_guard hfill, Faults.eq_of_guard hfinish⟩

/-- The temporary file can only be made when the directories above the destination are there. -/
theorem passable_of_create {made created : FileTree}
    (hmade : files.makeDirectories destination.parent = some made)
    (hcreate : made.writeFile (temporaryFor made destination) bytes = some created) :
    Passable made destination.parent.way := by
  cases files with
  | directory entries => exact passable_makeDirectories hmade
  | file other =>
      obtain rfl := makeAlong_file hmade
      rw [writeFile] at hcreate
      split at hcreate
      · cases hcreate
      · rw [resolve_temporaryFor] at hcreate
        obtain ⟨name, rest, heq⟩ := List.exists_cons_of_ne_nil
          (List.concat_ne_nil (temporaryFor (.file other) destination).name
            destination.parent.resolve.parts)
        rw [heq] at hcreate
        cases hcreate

/-- Below a root that is a file, nothing can be written. -/
theorem not_write_file : (write faults destination content (.file bytes)).2 = false := by
  rw [← Bool.not_eq_true]
  intro h
  obtain ⟨made, created, -, hmade, hcreate, -⟩ := exists_of_write h
  obtain ⟨entries, hroot⟩ := passable_of_create hmade hcreate [] List.nil_prefix
  rw [makeAlong_file hmade] at hroot
  cases hroot

/-- The second tree is the first one with a file at the path. -/
structure Holds (path : Path) (bytes : ByteArray) (made tree : FileTree) : Prop where
  agrees : AgreeOutside path.resolve.parts made tree
  passable : ∀ names, Passable made names → Passable tree names
  stands : tree.at? path.resolve.parts = some (.file bytes)

section

variable {path : Path} {made tree tree' : FileTree} {old : ByteArray}

theorem Holds.of_writeFile (hpass : Passable made path.parent.way)
    (h : made.writeFile path bytes = some tree) : Holds path bytes made tree := by
  obtain ⟨-, hfree, hinsert⟩ := FileTree.of_writeFile hpass h
  exact ⟨agreeOutside_insert hinsert, fun names hnames => passable_insert hnames hfree hinsert,
    at?_insert_self hinsert⟩

theorem Holds.refill (h : Holds path old made tree) (hpass : Passable made path.parent.way)
    (hw : tree.writeFile path bytes = some tree') : Holds path bytes made tree' := by
  have hagain := Holds.of_writeFile (h.passable _ hpass) hw
  exact ⟨h.agrees.trans hagain.agrees, fun names hnames => hagain.passable names (h.passable names hnames),
    hagain.stands⟩

theorem Holds.not_directory (h : Holds path bytes made tree) (entries : List (String × FileTree)) :
    tree.at? path.resolve.parts ≠ some (.directory entries) := by
  rw [h.stands]
  nofun

/-- The file can be taken away again. -/
theorem Holds.removeAt (h : Holds path bytes made tree) :
    AgreeOutside path.resolve.parts made (tree.removeAt path) ∧
      ∀ names, Passable made names → Passable (tree.removeAt path) names :=
  ⟨h.agrees.trans (agreeOutside_erase _ _), fun names hnames =>
    passable_erase (h.passable names hnames) h.not_directory⟩

end

theorem at?_removeAt_temporaryFor (made tree : FileTree) (destination : Path) :
    (tree.removeAt (temporaryFor made destination)).at?
      (temporaryFor made destination).resolve.parts = none := by
  refine at?_erase_self ?_ tree
  rw [resolve_temporaryFor]
  exact List.concat_ne_nil _ _

/-- All that a completed write does: directories are made above the destination, something is changed
in a place where nothing stands, and the content is put where no directory stands. -/
structure Completes (destination : Path) (content : ByteArray) (files made : FileTree)
    (temporary : List String) (cleared written : FileTree) : Prop where
  makes : files.makeDirectories destination.parent = some made
  fresh : made.at? temporary = none
  gone : cleared.at? temporary = none
  agrees : AgreeOutside temporary made cleared
  passableMade : ∀ names, Passable made names → Passable cleared names
  resolves : destination.resolve.parts = destination.parent.resolve.parts ++ [destination.name]
  noDirectory : ∀ entries, cleared.at? destination.resolve.parts ≠ some (.directory entries)
  puts : insert (.file content) destination.resolve.parts cleared = some written

theorem exists_completes (h : (write faults destination content files).2 = true) :
    ∃ made temporary cleared, Passable made destination.parent.way ∧
      Completes destination content files made temporary cleared
        (write faults destination content files).1 := by
  obtain ⟨made, created, filled, hmade, hcreate, hfill, hmove⟩ := exists_of_write h
  have hpass := passable_of_create hmade hcreate
  have hbeside := hpass
  rw [← (isTemporary_temporaryFor made destination).parent] at hbeside
  have hholds := (Holds.of_writeFile hbeside hcreate).refill hbeside hfill
  obtain ⟨hagrees, hcleared⟩ := hholds.removeAt
  -- What is moved is the content.
  obtain ⟨moved, hmoved, hwrite⟩ := Option.bind_eq_some_iff.1 hmove
  have hway : Passable filled (temporaryFor made destination).way.dropLast := by
    rw [way_temporaryFor, List.dropLast_concat]
    exact hholds.passable _ hpass
  rw [content?_eq_some hway, hholds.stands] at hmoved
  cases hmoved
  obtain ⟨hresolves, hnone, hputs⟩ := FileTree.of_writeFile (hcleared _ hpass) hwrite
  exact ⟨made, _, _, hpass, hmade, at?_temporaryFor hpass, at?_removeAt_temporaryFor _ _ _, hagrees,
    hcleared, hresolves, hnone, hputs⟩

variable {made cleared written : FileTree} {temporary names place : List String}

theorem Completes.at?_self (h : Completes destination content files made temporary cleared written) :
    written.at? destination.resolve.parts = some (.file content) := at?_insert_self h.puts

/-- Ways that can be passed still can be. -/
theorem Completes.passable
    (h : Completes destination content files made temporary cleared written)
    (hpass : Passable made names) : Passable written names :=
  passable_insert (h.passableMade names hpass) h.noDirectory h.puts

/-- A file in another place stays. -/
theorem Completes.at?_file (h : Completes destination content files made temporary cleared written)
    (hne : place ≠ destination.resolve.parts) (hat : files.at? place = some (.file bytes)) :
    written.at? place = some (.file bytes) := by
  have hmade : made.at? place = some (.file bytes) := at?_file_makeAlong h.makes hat
  have hcleared : cleared.at? place = some (.file bytes) :=
    h.agrees.symm.at?_file_of_none h.fresh hmade
  refine (agreeOutside_insert h.puts).symm.at?_file (fun hp => ?_) hcleared
  -- A destination on the way to the file would be a directory.
  obtain ⟨back, rfl⟩ := hp
  by_cases hb : back = []
  · rw [hb, List.append_nil] at hne
    exact hne rfl
  · obtain ⟨entries, hdir⟩ := exists_directory_of_append hb hcleared
    exact h.noDirectory entries hdir

/-! ### Contents -/

/-- The destination of a completed write has the content. -/
theorem content?_write_self (h : (write faults destination content files).2 = true) :
    (write faults destination content files).1.content? destination = some content := by
  obtain ⟨made, temporary, cleared, hpass, hc⟩ := exists_completes h
  rw [content?_eq_some (Path.dropLast_way hc.resolves ▸ hc.passable hpass)]
  exact hc.at?_self

/-- A completed write leaves the contents of all other files alone. -/
theorem content?_write_of_ne (h : (write faults destination content files).2 = true)
    (hne : other.resolve.parts ≠ destination.resolve.parts)
    (hother : files.content? other = some bytes) :
    (write faults destination content files).1.content? other = some bytes := by
  obtain ⟨made, temporary, cleared, -, hc⟩ := exists_completes h
  have hpass : Passable files other.way.dropLast := by
    cases files with
    | file bytes =>
        rw [not_write_file] at h
        cases h
    | directory entries =>
        rw [content?] at hother
        split at hother
        · rename_i found hfind
          exact passable_of_find? hfind
        · cases hother
  rw [content?_eq_some hpass] at hother
  rw [content?_eq_some (hc.passable (passable_of_makeAlong hc.makes hpass))]
  exact hc.at?_file hne hother

/-- A destination that a write can be completed for stands in the directory of its path. -/
theorem resolve_of_write (h : (write faults destination content files).2 = true) :
    destination.resolve.parts = destination.parent.resolve.parts ++ [destination.name] := by
  obtain ⟨made, temporary, cleared, -, hc⟩ := exists_completes h
  exact hc.resolves

end AtomicWrite

end RouteBinder.FileSystem
