import RouteBinder.FileSystem.AtomicWrite
import RouteBinder.Proofs.FileSystem.Places

/-!
# RouteBinder.Proofs.FileSystem.Changes

**What changes of file trees leave alone.** `FileTree.erase` and `FileTree.insert` change what stands
at a place, and the trees before and after `FileTree.AgreeOutside` that place. So they have the same at
every place that is `Apart` from it.

The writes of `AtomicWrite` are made of such changes. A directory stays as it is when the destination
is not written into it or below it (`AtomicWrite.at?_write`).
-/

namespace RouteBinder.FileSystem

/-! ### Places apart -/

/-- Neither of the places lies on the way to the other. -/
def Apart (p q : List String) : Prop := ¬ p <+: q ∧ ¬ q <+: p

theorem Apart.symm {p q : List String} (h : Apart p q) : Apart q p := ⟨h.2, h.1⟩

theorem apart_cons {a b : String} {p q : List String} :
    Apart (a :: p) (b :: q) ↔ (a = b → Apart p q) := by
  rw [Apart, List.cons_prefix_cons, List.cons_prefix_cons, Apart]
  by_cases hab : a = b
  · subst hab
    simp
  · simp [hab, Ne.symm hab]

theorem not_apart_nil (p : List String) : ¬ Apart p [] := fun h => h.2 List.nil_prefix

namespace FileTree

/-- Trees that agree outside a place have the same at all places apart from it. -/
theorem AgreeOutside.at?_of_apart {place other : List String} {s t : FileTree}
    (h : AgreeOutside place s t) (ha : Apart place other) : at? other s = at? other t := by
  induction place generalizing other s t with
  | nil => exact absurd List.nil_prefix ha.1
  | cons name rest ih =>
      cases other with
      | nil => exact absurd ha (not_apart_nil _)
      | cons next back =>
          rcases h.directory_or_eq with ⟨entries, entries', rfl, rfl⟩ | ⟨rfl, -⟩
          · by_cases hn : next = name
            · subst hn
              have hapart := apart_cons.1 ha rfl
              have hback : back ≠ [] := by
                rintro rfl
                exact not_apart_nil _ hapart
              rw [at?_cons_eq_under _ _ hback, at?_cons_eq_under _ _ hback]
              exact ih h.2 hapart
            · rw [at?_directory_cons, at?_directory_cons, ← Keyed.lookup_remove_of_ne hn, h.1,
                Keyed.lookup_remove_of_ne hn]
          · rfl

/-- A file that does not stand at the place or below it is there in both trees. -/
theorem AgreeOutside.at?_file {place other : List String} {s t : FileTree} {content : ByteArray}
    (h : AgreeOutside place s t) (hp : ¬ place <+: other) (ht : at? other t = some (file content)) :
    at? other s = some (file content) := by
  by_cases ho : other <+: place
  · obtain ⟨back, rfl⟩ := ho
    have hback : back ≠ [] := by
      rintro rfl
      rw [List.append_nil] at hp
      exact hp List.prefix_rfl
    obtain ⟨name, rest, rfl⟩ := List.exists_cons_of_ne_nil hback
    have hagree := h.at?_append
    rw [ht] at hagree
    cases hs : at? other s with
    | none =>
        rw [hs] at hagree
        cases hagree
    | some entry =>
        rw [hs] at hagree
        rcases hagree.directory_or_eq with ⟨entries, entries', -, heq⟩ | ⟨heq, -⟩
        · cases heq
        · exact congrArg some heq
  · rw [h.at?_of_apart ⟨hp, ho⟩, ht]

/-! ### Erasing -/

theorem erase_directory_cons {name : String} {rest : List String} (h : rest ≠ [])
    (entries : List (String × FileTree)) :
    erase (name :: rest) (directory entries) =
      match entries.lookup name with
      | some entry => directory (Keyed.put name (erase rest entry) entries)
      | none => directory entries := by
  obtain ⟨next, rest, rfl⟩ := List.exists_cons_of_ne_nil h
  rfl

theorem agreeOutside_erase : ∀ (place : List String) (tree : FileTree),
    AgreeOutside place tree (erase place tree)
  | [], _ => trivial
  | name :: rest, .file content => by
      cases rest <;> rfl
  | [name], .directory entries => by
      refine ⟨?_, trivial⟩
      rw [Keyed.remove, Keyed.remove, List.filter_filter]
      simp
  | name :: next :: rest, .directory entries => by
      rw [erase_directory_cons (List.cons_ne_nil _ _)]
      cases hl : entries.lookup name with
      | none => exact AgreeOutside.refl _ _
      | some entry =>
          refine ⟨(Keyed.remove_put _ _ _).symm, ?_⟩
          rw [under, under, hl, Keyed.lookup_put_self]
          exact agreeOutside_erase (next :: rest) entry

theorem at?_erase_self : ∀ {place : List String}, place ≠ [] → ∀ tree : FileTree,
    at? place (erase place tree) = none
  | [], h, _ => absurd rfl h
  | name :: rest, _, .file content => by
      cases rest <;> rfl
  | [name], _, .directory entries => by
      rw [erase, at?_singleton, Keyed.lookup_remove_self]
  | name :: next :: rest, _, .directory entries => by
      rw [erase_directory_cons (List.cons_ne_nil _ _)]
      cases hl : entries.lookup name with
      | none =>
          rw [at?_directory_cons, hl]
          rfl
      | some entry =>
          rw [at?_directory_cons, Keyed.lookup_put_self]
          exact at?_erase_self (List.cons_ne_nil _ _) entry

theorem wellFormed_put {entries : List (String × FileTree)} {name : String} {entry : FileTree}
    (h : (directory entries).wellFormed = true) (hn : isEntryName name = true)
    (he : entry.wellFormed = true) :
    (directory (Keyed.put name entry entries)).wellFormed = true := by
  obtain ⟨hs, hall⟩ := wellFormed_directory.1 h
  refine wellFormed_directory.2 ⟨hs.put name entry, fun e hmem => ?_⟩
  rcases Keyed.mem_put hmem with rfl | hmem
  · exact ⟨hn, he⟩
  · exact hall e hmem

theorem wellFormed_erase : ∀ (place : List String) {tree : FileTree}, tree.wellFormed = true →
    (erase place tree).wellFormed = true
  | [], _, h => h
  | name :: rest, .file content, h => by
      cases rest <;> exact h
  | [name], .directory entries, h => by
      obtain ⟨hs, hall⟩ := wellFormed_directory.1 h
      exact wellFormed_directory.2 ⟨hs.remove name, fun e hmem => hall e (List.mem_filter.1 hmem).1⟩
  | name :: next :: rest, .directory entries, h => by
      rw [erase_directory_cons (List.cons_ne_nil _ _)]
      cases hl : entries.lookup name with
      | none => exact h
      | some entry =>
          obtain ⟨hn, he⟩ := wellFormed_of_lookup h hl
          exact wellFormed_put h hn (wellFormed_erase (next :: rest) he)

/-- On the way to a place, directories stay there when the place is erased. -/
theorem at?_erase_append {front back : List String} (h : back ≠ []) (tree : FileTree) :
    at? front (erase (front ++ back) tree) = (at? front tree).map (erase back) := by
  induction front generalizing tree with
  | nil => rfl
  | cons name rest ih =>
      cases tree with
      | file content =>
          cases hr : rest ++ back <;> simp [erase, hr]
      | directory entries =>
          rw [List.cons_append, erase_directory_cons (List.append_ne_nil_of_right_ne_nil _ h),
            at?_directory_cons]
          cases hl : entries.lookup name with
          | none => rw [at?_directory_cons, hl]; rfl
          | some entry =>
              rw [at?_directory_cons, Keyed.lookup_put_self]
              exact ih entry

/-- A directory stays a directory, unless it is erased itself or with a directory around it. -/
theorem exists_directory_erase {place front : List String} {tree : FileTree}
    {entries : List (String × FileTree)} (h : at? front tree = some (directory entries))
    (hp : ¬ place <+: front) :
    ∃ entries', at? front (erase place tree) = some (directory entries') := by
  by_cases hf : front <+: place
  · obtain ⟨back, rfl⟩ := hf
    have hback : back ≠ [] := by
      rintro rfl
      rw [List.append_nil] at hp
      exact hp List.prefix_rfl
    rw [at?_erase_append hback, h]
    obtain ⟨name, rest, rfl⟩ := List.exists_cons_of_ne_nil hback
    cases rest with
    | nil => exact ⟨_, rfl⟩
    | cons next rest =>
        rw [Option.map_some, erase_directory_cons (List.cons_ne_nil _ _)]
        cases entries.lookup name with
        | none => exact ⟨_, rfl⟩
        | some entry => exact ⟨_, rfl⟩
  · rw [← (agreeOutside_erase place tree).at?_of_apart ⟨hp, hf⟩]
    exact ⟨entries, h⟩

/-- A directory that is there when something is erased was there before. -/
theorem exists_directory_of_erase {place front : List String} {tree : FileTree}
    {entries : List (String × FileTree)} (hp : place ≠ [])
    (h : at? front (erase place tree) = some (directory entries)) :
    ∃ entries', at? front tree = some (directory entries') := by
  by_cases hpf : place <+: front
  · obtain ⟨back, rfl⟩ := hpf
    rw [at?_append, at?_erase_self hp] at h
    cases h
  · by_cases hf : front <+: place
    · obtain ⟨back, rfl⟩ := hf
      have hback : back ≠ [] := by
        rintro rfl
        rw [List.append_nil] at hpf
        exact hpf List.prefix_rfl
      rw [at?_erase_append hback, Option.map_eq_some_iff] at h
      obtain ⟨entry, hentry, h⟩ := h
      cases entry with
      | directory entries' => exact ⟨entries', hentry⟩
      | file content =>
          obtain ⟨name, rest, rfl⟩ := List.exists_cons_of_ne_nil hback
          cases rest <;> cases h
    · rw [← (agreeOutside_erase place tree).at?_of_apart ⟨hpf, hf⟩] at h
      exact ⟨entries, h⟩

/-! ### Inserting -/

theorem insert_directory_cons {new : FileTree} {name : String} {rest : List String}
    {entries : List (String × FileTree)} {tree : FileTree} :
    insert new (name :: rest) (directory entries) = some tree ↔
      ∃ entry, insert new rest (under name entries) = some entry ∧
        tree = directory (Keyed.put name entry entries) := by
  rw [insert, Option.map_eq_some_iff]
  exact ⟨fun ⟨entry, he, ht⟩ => ⟨entry, he, ht.symm⟩, fun ⟨entry, he, ht⟩ => ⟨entry, he, ht.symm⟩⟩

theorem agreeOutside_insert {new : FileTree} {place : List String} {tree tree' : FileTree}
    (h : insert new place tree = some tree') : AgreeOutside place tree tree' := by
  induction place generalizing tree tree' with
  | nil => trivial
  | cons name rest ih =>
      cases tree with
      | file content => cases h
      | directory entries =>
          obtain ⟨entry, he, rfl⟩ := insert_directory_cons.1 h
          refine ⟨(Keyed.remove_put _ _ _).symm, ?_⟩
          rw [under, under, Keyed.lookup_put_self]
          exact ih he

theorem at?_insert_self {new : FileTree} {place : List String} {tree tree' : FileTree}
    (h : insert new place tree = some tree') : at? place tree' = some new := by
  induction place generalizing tree tree' with
  | nil => exact h.symm
  | cons name rest ih =>
      cases tree with
      | file content => cases h
      | directory entries =>
          obtain ⟨entry, he, rfl⟩ := insert_directory_cons.1 h
          rw [at?_directory_cons, Keyed.lookup_put_self]
          exact ih he

theorem wellFormed_insert {new : FileTree} {place : List String} {tree tree' : FileTree}
    (h : insert new place tree = some tree') (hw : tree.wellFormed = true)
    (hnew : new.wellFormed = true) (hplace : ∀ name ∈ place, isEntryName name = true) :
    tree'.wellFormed = true := by
  induction place generalizing tree tree' with
  | nil =>
      cases h
      exact hnew
  | cons name rest ih =>
      cases tree with
      | file content => cases h
      | directory entries =>
          obtain ⟨entry, he, rfl⟩ := insert_directory_cons.1 h
          exact wellFormed_put hw (hplace name List.mem_cons_self)
            (ih he (wellFormed_under hw name) fun other ho => hplace other (List.mem_cons_of_mem _ ho))

/-- A directory stays a directory, unless something is put in its place or around it. -/
theorem exists_directory_insert {new : FileTree} {place front : List String}
    {tree tree' : FileTree} {entries : List (String × FileTree)}
    (hi : insert new place tree = some tree') (h : at? front tree = some (directory entries))
    (hp : ¬ place <+: front) : ∃ entries', at? front tree' = some (directory entries') := by
  by_cases hf : front <+: place
  · obtain ⟨back, rfl⟩ := hf
    have hback : back ≠ [] := by
      rintro rfl
      rw [List.append_nil] at hp
      exact hp List.prefix_rfl
    have hnew := at?_insert_self hi
    rw [at?_append] at hnew
    obtain ⟨entry, hentry, hnew⟩ := Option.bind_eq_some_iff.1 hnew
    cases entry with
    | directory entries' => exact ⟨entries', hentry⟩
    | file content =>
        rw [at?_file content hback] at hnew
        cases hnew
  · rw [← (agreeOutside_insert hi).at?_of_apart ⟨hp, hf⟩]
    exact ⟨entries, h⟩

/-! ### Renaming -/

/-- The tree with a directory or a file at another place. Missing directories on the way are made. -/
def rename (source target : List String) (tree : FileTree) : Option FileTree :=
  (tree.at? source).bind fun moved => insert moved target (erase source tree)

theorem rename_eq_some {source target : List String} {tree tree' : FileTree} :
    rename source target tree = some tree' ↔
      ∃ moved, at? source tree = some moved ∧ insert moved target (erase source tree) = some tree' :=
  Option.bind_eq_some_iff

/-! ### Making directories -/

/-- Making a directory leaves a place alone that the directory is not at or below. -/
theorem at?_ensureDirectory {place other : List String} {tree tree' : FileTree}
    (h : ensureDirectory place tree = some tree') (hp : ¬ other <+: place) :
    at? other tree' = at? other tree := by
  induction place generalizing other tree tree' with
  | nil =>
      cases tree with
      | file content => cases h
      | directory entries =>
          cases h
          rfl
  | cons name rest ih =>
      cases tree with
      | file content => cases h
      | directory entries =>
          rw [ensureDirectory, Option.map_eq_some_iff] at h
          obtain ⟨entry, he, rfl⟩ := h
          cases other with
          | nil => exact absurd List.nil_prefix hp
          | cons next back =>
              rw [List.cons_prefix_cons, not_and] at hp
              rw [at?_directory_cons, at?_directory_cons]
              -- Only the entry on the way to the new directory changes.
              by_cases hn : next = name
              · subst hn
                have hback : ¬ back <+: rest := hp rfl
                have hne : back ≠ [] := by
                  rintro rfl
                  exact hback List.nil_prefix
                rw [Keyed.lookup_put_self, Option.bind_some, ih he hback, ← at?_directory_cons,
                  at?_cons_eq_under _ _ hne]
                rfl
              · rw [Keyed.lookup_put_of_ne hn]

theorem at?_makeAlong {passed names other : List String} {tree tree' : FileTree}
    (hdots : ".." ∉ passed ++ names) (h : makeAlong passed names tree = some tree')
    (hp : ¬ other <+: passed ++ names) : at? other tree' = at? other tree := by
  induction names generalizing passed tree with
  | nil =>
      cases h
      rfl
  | cons name rest ih =>
      have hassoc : passed ++ name :: rest = passed ++ [name] ++ rest := by simp
      rw [hassoc] at hdots hp
      rw [makeAlong] at h
      obtain ⟨middle, hm, h⟩ := Option.bind_eq_some_iff.1 h
      have hpassed : (Path.mk .root (passed ++ [name])).normalize.parts = passed ++ [name] := by
        have hself := @Path.normalize_eq_self ⟨.root, passed ++ [name]⟩ rfl
          fun hn => hdots (List.mem_append_left _ hn)
        exact congrArg Path.parts hself
      rw [hpassed] at hm
      rw [ih hdots h hp, at?_ensureDirectory hm fun hother =>
        hp (hother.trans (List.prefix_append _ _))]

/-- Making the directories above a file leaves a place alone that they are not at or below. -/
theorem at?_makeDirectories [Host] {path : Path} {other : List String} {tree tree' : FileTree}
    (habs : path.isAbsolute = true) (hdots : ".." ∉ path.parts)
    (h : tree.makeDirectories path = some tree') (hp : ¬ other <+: path.parts) :
    at? other tree' = at? other tree := by
  rw [makeDirectories, Path.join, if_pos habs] at h
  exact at?_makeAlong hdots h hp

/-! ### Writing and removing files -/

variable {path : Path} {place : List String} {tree tree' : FileTree}
  {entries : List (String × FileTree)}

/-- A path that is not below a directory and not on the way to it is apart from it. -/
theorem apart_of_parent (hparent : ¬ place <+: path.parts.dropLast)
    (hpath : ¬ path.parts <+: place) : Apart path.parts place := by
  refine ⟨hpath, fun hp => ?_⟩
  obtain ⟨back, hback⟩ := hp
  by_cases hb : back = []
  · subst hb
    rw [List.append_nil] at hback
    exact hpath (hback ▸ List.prefix_rfl)
  · rw [← hback, List.dropLast_append_of_ne_nil hb] at hparent
    exact hparent (List.prefix_append _ _)

/-- A file can be written where no directory stands, so not on the way to one. -/
theorem not_prefix_of_writeFile [Host] {content : ByteArray} (habs : path.isAbsolute = true)
    (hdots : ".." ∉ path.parts) (h : tree.writeFile path content = some tree')
    (hdir : at? place tree = some (directory entries)) : ¬ path.parts <+: place := by
  intro hp
  obtain ⟨entries', hpath⟩ := at?_of_prefix hdir hp
  rw [writeFile, isDirectoryAt, find?_eq_at? habs hdots, hpath] at h
  cases h

/-- Writing a file leaves directories alone that it is not written into. -/
theorem at?_writeFile [Host] {content : ByteArray} (habs : path.isAbsolute = true)
    (hdots : ".." ∉ path.parts) (h : tree.writeFile path content = some tree')
    (hdir : at? place tree = some (directory entries))
    (hparent : ¬ place <+: path.parts.dropLast) :
    at? place tree' = some (directory entries) := by
  have hapart := apart_of_parent hparent (not_prefix_of_writeFile habs hdots h hdir)
  rw [writeFile, Path.resolve_eq_self habs hdots] at h
  split at h
  · cases h
  · rw [← (agreeOutside_insert h).at?_of_apart hapart, hdir]

theorem at?_removeAt [Host] (habs : path.isAbsolute = true) (hdots : ".." ∉ path.parts)
    (hapart : Apart path.parts place) : at? place (tree.removeAt path) = at? place tree := by
  rw [removeAt, Path.resolve_eq_self habs hdots]
  exact ((agreeOutside_erase path.parts tree).at?_of_apart hapart).symm

end FileTree

/-! ### Writing a file in one step -/

namespace AtomicWrite

theorem temporaryName_ne_dots (taken : List String) (name : String) :
    temporaryName taken name ≠ ".." := by
  intro h
  have hlength := congrArg (fun text => text.toList.length) h
  simp [temporaryName] at hlength
  omega

theorem Faults.guard_eq_some_iff {α : Type} {faults : Faults} {step : Step} {result : Option α}
    {value : α} :
    faults.guard step result = some value ↔ faults step = false ∧ result = some value := by
  rw [guard]
  cases faults step <;> simp

theorem Faults.eq_of_guard {α : Type} {faults : Faults} {step : Step} {result : Option α}
    {value : α} (h : faults.guard step result = some value) : result = some value :=
  (Faults.guard_eq_some_iff.1 h).2

/-- A directory is made unless a file stands in its way, or it is missing and refused. -/
theorem makeParent_eq_some_iff [Host] {faults : Faults} {names : List String} {files made : FileTree} :
    makeParent faults names files = some made ↔
      (files.isDirectoryAt ⟨.root, names⟩ = false → faults (.makeParent names.length) = false) ∧
        FileTree.ensureDirectory (Path.mk .root names).normalize.parts files = some made := by
  rw [makeParent]
  cases files.isDirectoryAt ⟨.root, names⟩ <;> simp [Faults.guard_eq_some_iff]

/-- A temporary file for a destination stands beside it. -/
def IsTemporary (destination path : Path) : Prop :=
  ∃ taken, path = destination.parent.child (temporaryName taken destination.name)

theorem isTemporary_temporaryFor [Host] (files : FileTree) (destination : Path) :
    IsTemporary destination (temporaryFor files destination) := ⟨_, rfl⟩

theorem IsTemporary.parent {destination path : Path} (h : IsTemporary destination path) :
    path.parent = destination.parent := by
  obtain ⟨taken, rfl⟩ := h
  simp [Path.parent, Path.child]

/-- The directories on a way are made up to some name, the last one unless something goes wrong. -/
theorem exists_makeAlong_makeParents [Host] (faults : Faults) (passed names : List String)
    (files : FileTree) :
    ∃ front, front <+: names ∧
      FileTree.makeAlong passed front files = some (makeParents faults passed names files).1 ∧
      ((makeParents faults passed names files).2 = true → front = names) := by
  induction names generalizing passed files with
  | nil => exact ⟨[], List.prefix_rfl, rfl, fun _ => rfl⟩
  | cons name rest ih =>
      rw [makeParents]
      cases hmade : makeParent faults (passed ++ [name]) files with
      | none => exact ⟨[], List.nil_prefix, rfl, nofun⟩
      | some made =>
          obtain ⟨front, hfront, halong, hall⟩ := ih (passed ++ [name]) made
          refine ⟨name :: front, List.cons_prefix_cons.2 ⟨rfl, hfront⟩, ?_, fun h => by rw [hall h]⟩
          rw [FileTree.makeAlong]
          exact Option.bind_eq_some_iff.2 ⟨made, (makeParent_eq_some_iff.1 hmade).2, halong⟩

/-- A write that does not get past the directories above its destination has made some of them. Otherwise,
what holds once all of them are made, and is kept when the temporary file or the destination is written and
when the temporary file is taken away, holds after the write. -/
theorem write_induction [Host] {Q : FileTree → Prop} (faults : Faults) (destination : Path)
    (content : ByteArray) (files : FileTree)
    (hmake : ∀ made, files.makeDirectories destination.parent = some made → Q made)
    (hwrite : ∀ path bytes tree tree', IsTemporary destination path ∨ path = destination →
      Q tree → tree.writeFile path bytes = some tree' → Q tree')
    (hremove : ∀ path bytes tree tree', IsTemporary destination path →
      Q tree → tree.writeFile path bytes = some tree' → Q (tree'.removeAt path)) :
    (∃ front, front <+: (Path.workingDirectory.join destination.parent).parts ∧
        FileTree.makeAlong [] front files = some (write faults destination content files).1) ∨
      Q (write faults destination content files).1 := by
  unfold write
  obtain ⟨front, hfront, halong, hall⟩ := exists_makeAlong_makeParents faults []
    (Path.workingDirectory.join destination.parent).parts files
  cases hmade : makeParents faults [] (Path.workingDirectory.join destination.parent).parts files with
  | mk made complete =>
  rw [hmade] at halong hall
  cases complete with
  | false => exact Or.inl ⟨front, hfront, halong⟩
  | true =>
      rw [hall rfl] at halong
      have hq : Q made := hmake made halong
      have htemp := isTemporary_temporaryFor made destination
      right
      dsimp only
      cases hcreate : faults.guard .createTemporary
          (made.writeFile (temporaryFor made destination) .empty) with
      | none => exact hq
      | some created =>
          have hcreated := Faults.eq_of_guard hcreate
          dsimp only
          split
          · exact hremove _ _ made created htemp hq hcreated
          · rename_i written hfinish
            obtain ⟨filled, hfill, hfinish⟩ := Option.bind_eq_some_iff.1 hfinish
            obtain ⟨closed, hclose, hfinish⟩ := Option.bind_eq_some_iff.1 hfinish
            obtain ⟨bytes, -, hmove⟩ := Option.bind_eq_some_iff.1 (Faults.eq_of_guard hfinish)
            obtain rfl := Option.some.inj (Faults.eq_of_guard hclose)
            have hq' := hwrite _ _ made created (Or.inl htemp) hq hcreated
            have hq'' := hremove _ _ created filled htemp hq' (Faults.eq_of_guard hfill)
            exact hwrite _ _ _ written (Or.inr rfl) hq'' hmove

/-- A write leaves directories alone that its destination is not in or below, whatever the operating
system refuses. -/
theorem at?_write [Host] (faults : Faults) {destination : Path} (habs : destination.isAbsolute = true)
    (hdots : ".." ∉ destination.parts) (content : ByteArray) {files : FileTree}
    {place : List String} {entries : List (String × FileTree)}
    (hdir : files.at? place = some (.directory entries))
    (hparent : ¬ place <+: destination.parts.dropLast) :
    (write faults destination content files).1.at? place = some (.directory entries) := by
  have hparentabs : destination.parent.isAbsolute = true := habs
  have hparentdots : ".." ∉ destination.parent.parts := fun h =>
    hdots (List.dropLast_subset _ h)
  have htemporary : ∀ path, IsTemporary destination path → path.isAbsolute = true ∧
      ".." ∉ path.parts ∧ ¬ place <+: path.parts.dropLast := by
    intro path htemp
    obtain ⟨taken, rfl⟩ := htemp
    refine ⟨habs, fun h => ?_, ?_⟩
    · rcases List.mem_append.1 h with h | h
      · exact hparentdots h
      · exact temporaryName_ne_dots _ _ (List.mem_singleton.1 h).symm
    · rwa [Path.child, List.dropLast_concat]
  have h := write_induction (Q := fun tree => tree.at? place = some (.directory entries)) faults
    destination content files ?_ ?_ ?_
  · rcases h with ⟨front, hfront, halong⟩ | h
    · rw [Path.join, if_pos hparentabs] at hfront
      rw [FileTree.at?_makeAlong (fun h => hparentdots (hfront.subset h)) halong
        fun h => hparent (h.trans hfront), hdir]
    · exact h
  · intro made hmade
    rw [FileTree.at?_makeDirectories hparentabs hparentdots hmade hparent, hdir]
  · intro path bytes tree tree' hpath htree hwrite
    rcases hpath with htemp | rfl
    · obtain ⟨habs', hdots', hparent'⟩ := htemporary path htemp
      exact FileTree.at?_writeFile habs' hdots' hwrite htree hparent'
    · exact FileTree.at?_writeFile habs hdots hwrite htree hparent
  -- The temporary file stands beside the way to the directory, so it can be taken away.
  · intro path bytes tree tree' htemp htree hwrite
    obtain ⟨habs', hdots', hparent'⟩ := htemporary path htemp
    have hapart : Apart path.parts place := FileTree.apart_of_parent hparent'
      (FileTree.not_prefix_of_writeFile habs' hdots' hwrite htree)
    rw [FileTree.at?_removeAt habs' hdots' hapart]
    exact FileTree.at?_writeFile habs' hdots' hwrite htree hparent'

end AtomicWrite

end RouteBinder.FileSystem
