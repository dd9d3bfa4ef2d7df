import RouteBinder.FileSystem.FileTree
import RouteBinder.Proofs.Keyed

/-!
# RouteBinder.Proofs.FileSystem.Places

**Places in file trees.** A place is a list of names that lead down from a directory. This module
provides

* `FileTree.WellFormed`: the entries of all directories are in order and have names that file systems
  allow, so that nothing else stands under the name of a place;
* `FileTree.at?`: what stands at a place;
* `FileTree.AgreeOutside`: two trees are the same but for what stands at a place; and
* the places that paths lead to: a resolved path has no `..` in it (`Path.dots_not_mem_resolve`), and
  `FileTree.find?` then follows its names one by one (`FileTree.find?_eq_at?`).
-/

namespace RouteBinder.FileSystem

namespace FileTree

/-! ### Well-formed trees -/

/-- A name that an entry of a directory can have. -/
def isEntryName (name : String) : Bool :=
  name != "" && name != "." && name != ".." && !name.toList.contains '/'

mutual
/-- Every directory of the tree has its entries in order, under names that entries can have. -/
def wellFormed : FileTree → Bool
  | .file _ => true
  | .directory entries => decide (Keyed.Sorted entries) && entriesWellFormed entries

def entriesWellFormed : List (String × FileTree) → Bool
  | [] => true
  | (name, entry) :: rest => isEntryName name && entry.wellFormed && entriesWellFormed rest
end

theorem entriesWellFormed_iff {entries : List (String × FileTree)} :
    entriesWellFormed entries = true ↔
      ∀ e ∈ entries, isEntryName e.1 = true ∧ e.2.wellFormed = true := by
  induction entries with
  | nil => simp [entriesWellFormed]
  | cons entry rest ih =>
      obtain ⟨name, entry⟩ := entry
      simp [entriesWellFormed, ih]

theorem wellFormed_directory {entries : List (String × FileTree)} :
    (directory entries).wellFormed = true ↔
      Keyed.Sorted entries ∧ ∀ e ∈ entries, isEntryName e.1 = true ∧ e.2.wellFormed = true := by
  simp only [wellFormed, Bool.and_eq_true, decide_eq_true_eq, entriesWellFormed_iff]

theorem wellFormed_of_lookup {entries : List (String × FileTree)} {name : String} {entry : FileTree}
    (h : (directory entries).wellFormed = true) (hl : entries.lookup name = some entry) :
    isEntryName name = true ∧ entry.wellFormed = true :=
  (wellFormed_directory.1 h).2 _ (Keyed.mem_of_lookup hl)

theorem isEntryName_iff {name : String} :
    isEntryName name = true ↔ name ≠ "" ∧ name ≠ "." ∧ name ≠ ".." ∧ '/' ∉ name.toList := by
  simp [isEntryName, and_assoc]

/-! ### What stands at a place -/

/-- What stands at a place. -/
def at? : List String → FileTree → Option FileTree
  | [], tree => some tree
  | name :: rest, tree => (tree.entries.lookup name).bind (at? rest)

@[simp] theorem at?_nil (tree : FileTree) : at? [] tree = some tree := rfl

@[simp] theorem at?_file_cons (content : ByteArray) (name : String) (rest : List String) :
    at? (name :: rest) (file content) = none := rfl

theorem at?_directory_cons (entries : List (String × FileTree)) (name : String)
    (rest : List String) :
    at? (name :: rest) (directory entries) = (entries.lookup name).bind (at? rest) := rfl

theorem at?_append (front back : List String) (tree : FileTree) :
    at? (front ++ back) tree = (at? front tree).bind (at? back) := by
  induction front generalizing tree with
  | nil => rfl
  | cons name rest ih =>
      cases tree with
      | file content => rfl
      | directory entries =>
          rw [List.cons_append, at?_directory_cons, at?_directory_cons]
          cases entries.lookup name with
          | none => rfl
          | some entry => exact ih entry

/-- What something is below is a directory. -/
theorem exists_directory_of_append {front back : List String} {tree entry : FileTree}
    (hb : back ≠ []) (h : at? (front ++ back) tree = some entry) :
    ∃ entries, at? front tree = some (directory entries) := by
  rw [at?_append] at h
  obtain ⟨above, habove, h⟩ := Option.bind_eq_some_iff.1 h
  obtain ⟨name, rest, rfl⟩ := List.exists_cons_of_ne_nil hb
  cases above with
  | directory entries => exact ⟨entries, habove⟩
  | file content => cases h

/-- What is on the way to a directory is a directory. -/
theorem at?_of_prefix {place front : List String} {tree : FileTree}
    {entries : List (String × FileTree)} (h : at? place tree = some (directory entries))
    (hf : front <+: place) : ∃ entries', at? front tree = some (directory entries') := by
  obtain ⟨back, rfl⟩ := hf
  by_cases hb : back = []
  · rw [hb, List.append_nil] at h
    exact ⟨entries, h⟩
  · exact exists_directory_of_append hb h

theorem wellFormed_at? {place : List String} {tree entry : FileTree}
    (h : tree.wellFormed = true) (ha : at? place tree = some entry) : entry.wellFormed = true := by
  induction place generalizing tree with
  | nil =>
      cases ha
      exact h
  | cons name rest ih =>
      cases tree with
      | file content => cases ha
      | directory entries =>
          obtain ⟨next, hl, ha⟩ := Option.bind_eq_some_iff.1 ha
          exact ih (wellFormed_of_lookup h hl).2 ha

/-- Only names that entries can have lead anywhere. -/
theorem isEntryName_of_at? {place : List String} {tree entry : FileTree}
    (h : tree.wellFormed = true) (ha : at? place tree = some entry) :
    ∀ name ∈ place, isEntryName name = true := by
  induction place generalizing tree with
  | nil => exact fun name hn => absurd hn List.not_mem_nil
  | cons name rest ih =>
      cases tree with
      | file content => cases ha
      | directory entries =>
          obtain ⟨next, hl, ha⟩ := Option.bind_eq_some_iff.1 ha
          obtain ⟨hname, hnext⟩ := wellFormed_of_lookup h hl
          intro other ho
          rcases List.mem_cons.1 ho with rfl | ho
          · exact hname
          · exact ih hnext ha other ho

/-! ### Agreement outside a place -/

/-- What stands under a name of a directory. Where nothing does, an empty directory might as well. -/
def under (name : String) (entries : List (String × FileTree)) : FileTree :=
  (entries.lookup name).getD (.directory [])

theorem at?_empty {place : List String} (h : place ≠ []) : at? place (directory []) = none := by
  obtain ⟨name, rest, rfl⟩ := List.exists_cons_of_ne_nil h
  rfl

theorem at?_singleton (entries : List (String × FileTree)) (name : String) :
    at? [name] (directory entries) = entries.lookup name := by
  rw [at?_directory_cons]
  cases entries.lookup name <;> rfl

theorem at?_cons_eq_under (entries : List (String × FileTree)) (name : String)
    {rest : List String} (h : rest ≠ []) :
    at? (name :: rest) (directory entries) = at? rest (under name entries) := by
  rw [at?_directory_cons, under]
  cases entries.lookup name with
  | none => exact (at?_empty h).symm
  | some entry => rfl

theorem wellFormed_under {entries : List (String × FileTree)}
    (h : (directory entries).wellFormed = true) (name : String) :
    (under name entries).wellFormed = true := by
  rw [under]
  cases hl : entries.lookup name with
  | none => decide
  | some entry => exact (wellFormed_of_lookup h hl).2

/-- The trees are the same, but for what stands at the place. A directory on the way to it may be
missing in one of them when the other one has nothing in it but the rest of the way. -/
def AgreeOutside : List String → FileTree → FileTree → Prop
  | [], _, _ => True
  | name :: rest, .directory s, .directory t =>
    Keyed.remove name s = Keyed.remove name t ∧ AgreeOutside rest (under name s) (under name t)
  | _ :: _, s, t => s = t

theorem AgreeOutside.refl (place : List String) (tree : FileTree) : AgreeOutside place tree tree := by
  induction place generalizing tree with
  | nil => trivial
  | cons name rest ih =>
      cases tree with
      | file content => rfl
      | directory entries => exact ⟨rfl, ih _⟩

theorem AgreeOutside.symm {place : List String} {s t : FileTree} (h : AgreeOutside place s t) :
    AgreeOutside place t s := by
  induction place generalizing s t with
  | nil => trivial
  | cons name rest ih =>
      cases s with
      | file content =>
          cases t with
          | file content' => exact Eq.symm h
          | directory entries => cases h
      | directory entries =>
          cases t with
          | file content => cases h
          | directory entries' => exact ⟨h.1.symm, ih h.2⟩

/-- Above the place, both trees have a directory or might as well have one, or both have the same. -/
theorem AgreeOutside.directory_or_eq {name : String} {rest : List String} {s t : FileTree}
    (h : AgreeOutside (name :: rest) s t) :
    (∃ entries entries', s = directory entries ∧ t = directory entries') ∨
      s = t ∧ ∃ content, s = file content := by
  cases s with
  | file content =>
      refine Or.inr ⟨?_, content, rfl⟩
      cases t with
      | file content' => exact h
      | directory entries => cases h
  | directory entries =>
      cases t with
      | file content => cases h
      | directory entries' => exact Or.inl ⟨entries, entries', rfl, rfl⟩

/-- Directories that have the same entries, but for one name, and the same under this name. -/
theorem entries_eq_of_remove {name : String} {entries entries' : List (String × FileTree)}
    (hs : (directory entries).wellFormed = true) (ht : (directory entries').wellFormed = true)
    (hr : Keyed.remove name entries = Keyed.remove name entries')
    (hl : entries.lookup name = entries'.lookup name) : entries = entries' := by
  refine (wellFormed_directory.1 hs).1.ext (wellFormed_directory.1 ht).1 fun other => ?_
  by_cases ho : other = name
  · rw [ho, hl]
  · rw [← Keyed.lookup_remove_of_ne ho, hr, Keyed.lookup_remove_of_ne ho]

theorem at?_file (content : ByteArray) {place : List String} (h : place ≠ []) :
    at? place (file content) = none := by
  obtain ⟨name, rest, rfl⟩ := List.exists_cons_of_ne_nil h
  rfl

/-- Two trees that agree outside a place below a directory agree there on what is in it. -/
theorem AgreeOutside.at?_append {front back : List String} {s t : FileTree}
    (h : AgreeOutside (front ++ back) s t) :
    AgreeOutside back ((at? front s).getD (.directory [])) ((at? front t).getD (.directory [])) := by
  induction front generalizing s t with
  | nil => exact h
  | cons name rest ih =>
      rcases h.directory_or_eq with ⟨entries, entries', rfl, rfl⟩ | ⟨rfl, content, rfl⟩
      · have hnext : ∀ es : List (String × FileTree), (at? (name :: rest) (directory es)).getD
            (.directory []) = (at? rest (under name es)).getD (.directory []) := by
          intro es
          by_cases hr : rest = []
          · subst hr
            rw [at?_singleton]
            rfl
          · rw [at?_cons_eq_under es name hr]
        rw [hnext, hnext]
        exact ih h.2
      · exact AgreeOutside.refl back _

end FileTree

/-! ### Where paths lead -/

namespace Path

theorem walkBack_of_ne {name : String} (h : name ≠ "..") (rooted : Bool) (seen : List String) :
    walkBack rooted seen name = name :: seen := by
  unfold walkBack
  rw [if_neg (by simpa only [beq_iff_eq] using h)]

theorem dots_not_mem_walkBack {seen : List String} (h : ".." ∉ seen) (name : String) :
    ".." ∉ walkBack true seen name := by
  by_cases hname : name = ".."
  · subst hname
    cases seen with
    | nil => exact List.not_mem_nil
    | cons last rest =>
        rw [List.mem_cons, not_or] at h
        have hlast : (last == "..") = false := beq_eq_false_iff_ne.2 (Ne.symm h.1)
        simp only [walkBack, beq_self_eq_true, if_true, hlast, Bool.false_eq_true, if_false]
        exact h.2
  · rw [walkBack_of_ne hname, List.mem_cons, not_or]
    exact ⟨Ne.symm hname, h⟩

theorem dots_not_mem_foldl_walkBack (names : List String) {seen : List String} (h : ".." ∉ seen) :
    ".." ∉ names.foldl (walkBack true) seen := by
  induction names generalizing seen with
  | nil => exact h
  | cons name rest ih => exact ih (dots_not_mem_walkBack h name)

theorem isFileName_iff {name : String} :
    isFileName name = true ↔ FileTree.isEntryName name = true ∧ Text.hasNull name = false := by
  simp [isFileName, isIdle, FileTree.isEntryName, and_assoc]

theorem isEntryName_of_mem_workingDirectory [Host] {name : String}
    (h : name ∈ workingDirectory.parts) : FileTree.isEntryName name = true :=
  (isFileName_iff.1 (Host.isFileName_of_mem name h)).1

theorem hasNull_of_mem_workingDirectory [Host] {name : String} (h : name ∈ workingDirectory.parts) :
    Text.hasNull name = false :=
  (isFileName_iff.1 (Host.isFileName_of_mem name h)).2

theorem isAbsolute_join_workingDirectory [Host] (path : Path) :
    (workingDirectory.join path).isAbsolute = true := by
  rw [join]
  split
  · assumption
  · rfl

/-- A resolved path has been taken back all the way. -/
theorem dots_not_mem_resolve [Host] (path : Path) : ".." ∉ path.resolve.parts := by
  rw [resolve, normalize, isAbsolute_join_workingDirectory, List.mem_reverse]
  exact dots_not_mem_foldl_walkBack _ List.not_mem_nil

theorem isAbsolute_resolve [Host] (path : Path) : path.resolve.isAbsolute = true :=
  isAbsolute_join_workingDirectory path

theorem foldl_walkBack_of_not_mem {names : List String} (h : ".." ∉ names) (seen : List String) :
    names.foldl (walkBack true) seen = names.reverse ++ seen := by
  induction names generalizing seen with
  | nil => rfl
  | cons name rest ih =>
      rw [List.mem_cons, not_or] at h
      rw [List.foldl_cons, walkBack_of_ne (Ne.symm h.1), ih h.2, List.reverse_cons,
        List.append_assoc]
      rfl

theorem normalize_eq_self {path : Path} (habs : path.isAbsolute = true) (h : ".." ∉ path.parts) :
    path.normalize = path := by
  rw [normalize, habs, foldl_walkBack_of_not_mem h]
  simp

/-- An absolute path without `..` is its own resolution. -/
theorem resolve_eq_self [Host] {path : Path} (habs : path.isAbsolute = true)
    (h : ".." ∉ path.parts) : path.resolve = path := by
  rw [resolve, join, if_pos habs, normalize_eq_self habs h]

theorem below?_eq_some {path directory : Path} {names : List String}
    (h : path.below? directory = some names) :
    path.anchor = directory.anchor ∧ path.parts = directory.parts ++ names := by
  rw [below?] at h
  split at h
  · rename_i hp
    rw [Bool.and_eq_true, beq_iff_eq, List.isPrefixOf_iff_prefix] at hp
    obtain ⟨rest, hrest⟩ := hp.2
    cases h
    exact ⟨hp.1, by rw [← hrest, List.drop_left]⟩
  · cases h

end Path

namespace FileTree

theorem walk_eq_at? {names : List String} (h : ".." ∉ names) (above : List FileTree)
    (here : FileTree) : walk above here names = at? names here := by
  induction names generalizing above here with
  | nil => rfl
  | cons name rest ih =>
      rw [List.mem_cons, not_or] at h
      cases here with
      | file content => rfl
      | directory entries =>
          have hname : (name == "..") = false := beq_eq_false_iff_ne.2 (Ne.symm h.1)
          simp only [walk, hname, Bool.false_eq_true, if_false, at?_directory_cons]
          cases entries.lookup name with
          | none => rfl
          | some entry => exact ih h.2 _ entry

/-- An absolute path without `..` leads where its names lead. -/
theorem find?_eq_at? [Host] {path : Path} (habs : path.isAbsolute = true) (h : ".." ∉ path.parts)
    (root : FileTree) : root.find? path = root.at? path.parts := by
  rw [find?, Path.join, if_pos habs, walk_eq_at? h]

end FileTree

end RouteBinder.FileSystem
