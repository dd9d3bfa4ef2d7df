import RouteBinder.Proofs.FileSystem.PathText
import RouteBinder.Proofs.FileSystem.Ways
import RouteBinder.Proofs.FileSystem.Writes

/-!
# RouteBinder.Proofs.FileSystem.Specifiers

**Relative module specifiers in other directories.** A specifier that is written anew is the way from the
other directory to the file, as a text (`rebase_eq`). The text is read back as the way
(`names_joinNames_spelled`), so it names the same file there (`normalize_join_rebase`).
-/

namespace RouteBinder.FileSystem

open Text

namespace Path

/-! ### Directories by their resolved paths -/

/-- An absolute path behind one slash that has nothing in it to take back or to leave out. -/
structure IsCanonical (path : Path) : Prop where
  anchor : path.anchor = .root
  hasEntryNames : path.HasEntryNames

instance (path : Path) : Decidable path.IsCanonical :=
  decidable_of_iff (path.anchor = .root ∧ ∀ name ∈ path.parts, FileTree.isEntryName name = true)
    ⟨fun h => ⟨h.1, h.2⟩, fun h => ⟨h.1, h.2⟩⟩

variable {path other directory : Path}

theorem IsCanonical.isAbsolute (h : path.IsCanonical) : path.isAbsolute = true := by
  rw [Path.isAbsolute, h.anchor]
  rfl

theorem IsCanonical.dots_not_mem (h : path.IsCanonical) : ".." ∉ path.parts := fun hdots =>
  (FileTree.isEntryName_iff.1 (h.hasEntryNames _ hdots)).2.2.1 rfl

theorem IsCanonical.ne_dots (h : path.IsCanonical) {front rest : List String} {name : String}
    (hparts : path.parts = front ++ name :: rest) : name ≠ ".." := by
  rintro rfl
  exact h.dots_not_mem (hparts ▸ List.mem_append_right front List.mem_cons_self)

theorem IsCanonical.resolve [Host] (h : path.IsCanonical) : path.resolve = path :=
  resolve_eq_self h.isAbsolute h.dots_not_mem

theorem resolve_eq_normalize [Host] (h : path.isAbsolute = true) : path.resolve = path.normalize := by
  rw [Path.resolve, join, if_pos h]

theorem IsCanonical.hasTextNames (h : path.IsCanonical) : path.HasTextNames := fun name hname =>
  Or.inr (h.hasEntryNames name hname)

theorem IsCanonical.eq_iff (h : path.IsCanonical) (ho : other.IsCanonical) :
    path = other ↔ path.parts = other.parts := by
  obtain ⟨anchor, parts⟩ := path
  obtain ⟨anchor', parts'⟩ := other
  obtain rfl : anchor = .root := h.anchor
  obtain rfl : anchor' = .root := ho.anchor
  rw [Path.mk.injEq, eq_self, true_and]

theorem IsCanonical.eq_child_iff (h : path.IsCanonical) (ho : other.IsCanonical) {name : String} :
    other = path.child name ↔ other.parts = path.parts ++ [name] := by
  obtain ⟨anchor, parts⟩ := path
  obtain ⟨anchor', parts'⟩ := other
  obtain rfl : anchor = .root := h.anchor
  obtain rfl : anchor' = .root := ho.anchor
  rw [child, Path.mk.injEq, eq_self, true_and]

/-! ### Reading names -/

theorem anchor_ofString {text : String} (h : text.toList.head? = some '.') :
    (ofString text).anchor = .relative := by
  obtain ⟨rest, hrest⟩ := List.head?_eq_some_iff.1 h
  rw [ofString, anchorOf, hrest, List.takeWhile_cons_of_neg (by decide)]
  rfl

theorem names_joinNames {names : List String} (hne : names ≠ [])
    (h : ∀ name ∈ names, '/' ∉ name.toList) :
    Path.names (joinNames names) = names.filter (!isIdle ·) := by
  have hid : names.map (String.ofList ∘ String.toList) = names := by
    simp [Function.comp_def]
  rw [Path.names, toList_joinNames, splitOn_joinedNames hne h, List.map_map, hid]

theorem joinedNames_cons_cons (first next : String) (rest : List String) :
    joinedNames (first :: next :: rest) = first.toList ++ '/' :: joinedNames (next :: rest) := by
  have happend := joinedNames_append (List.cons_ne_nil first []) (List.cons_ne_nil next rest)
  rw [List.singleton_append] at happend
  rw [happend]
  simp [joinedNames]

end Path

open FileSystem.Path

/-! ### Files that specifiers name -/

/-- What a relative specifier names in a directory. -/
def moduleAt (directory : Path) (specifier : String) : Path :=
  (directory.join (.ofString specifier)).normalize

variable {origin target next : Path} {specifier : String}

theorem head?_of_isRelativeSpecifier (h : isRelativeSpecifier specifier = true) :
    specifier.toList.head? = some '.' := by
  rw [isRelativeSpecifier, Bool.or_eq_true, List.isPrefixOf_iff_prefix, List.isPrefixOf_iff_prefix] at h
  rcases h with ⟨rest, hrest⟩ | ⟨rest, hrest⟩
  · rw [← hrest]
    rfl
  · rw [← hrest]
    rfl

theorem join_ofString (h : specifier.toList.head? = some '.') :
    origin.join (.ofString specifier) =
      { origin with parts := origin.parts ++ (ofString specifier).parts } := by
  rw [Path.join, Path.isAbsolute, anchor_ofString h]
  rfl

theorem moduleAt_eq_resolve [Host] (ho : origin.IsCanonical) (h : specifier.toList.head? = some '.') :
    moduleAt origin specifier = (origin.join (.ofString specifier)).resolve := by
  rw [moduleAt, resolve_eq_normalize]
  rw [join_ofString h]
  exact ho.isAbsolute

theorem parts_moduleAt (ho : origin.IsCanonical) (h : specifier.toList.head? = some '.') :
    (moduleAt origin specifier).parts = placeOf (origin.parts ++ (ofString specifier).parts) := by
  rw [moduleAt, Path.normalize, join_ofString h]
  show (List.foldl (walkBack origin.isAbsolute) [] _).reverse = _
  rw [ho.isAbsolute, placeOf]

theorem isCanonical_moduleAt [Host] (ho : origin.IsCanonical) (h : specifier.toList.head? = some '.') :
    (moduleAt origin specifier).IsCanonical := by
  constructor
  · rw [moduleAt, Path.normalize, join_ofString h]
    exact ho.anchor
  · rw [moduleAt_eq_resolve ho h]
    exact (ho.hasTextNames.join (hasTextNames_ofString specifier)).resolve

/-! ### Ways as texts -/

/-- The names of hidden files and directories begin with a dot. -/
def IsHidden (name : String) : Prop := name.toList.head? = some '.'

instance (name : String) : Decidable (IsHidden name) := inferInstanceAs (Decidable (_ = _))

/-- The names of the specifier for a way. A way down gets a dot in front, unless it begins with one. -/
def spelled : List String → List String
  | [] => ["."]
  | name :: rest => if IsHidden name then name :: rest else "." :: name :: rest

theorem head?_joinNames {name : String} (hname : name ≠ "") (rest : List String) :
    (joinNames (name :: rest)).toList.head? = name.toList.head? := by
  have hne : name.toList ≠ [] := fun h => hname (String.toList_eq_nil_iff.1 h)
  rw [toList_joinNames]
  cases rest with
  | nil => simp [joinedNames]
  | cons next rest => rw [joinedNames_cons_cons, List.head?_append_of_ne_nil _ hne]

/-- A specifier that is written anew is the way to the file. -/
theorem rebase_eq [Host] (ho : origin.IsCanonical) (ht : target.IsCanonical)
    (h : isRelativeSpecifier specifier = true) :
    rebase specifier (some origin) (some target) =
      joinNames (spelled (wayTo target.parts (moduleAt origin specifier).parts)) := by
  have hfile := isCanonical_moduleAt ho (head?_of_isRelativeSpecifier h)
  rw [rebase, if_pos h, relativeTo, ht.resolve,
    ← moduleAt_eq_resolve ho (head?_of_isRelativeSpecifier h)]
  cases hway : wayTo target.parts (moduleAt origin specifier).parts with
  | nil => rfl
  | cons name rest =>
      have hname : name ≠ "" := by
        rintro rfl
        rcases mem_wayTo (hway ▸ List.mem_cons_self) with hdots | hmem
        · exact absurd hdots (by decide)
        · exact (FileTree.isEntryName_iff.1 (hfile.hasEntryNames _ hmem)).1 rfl
      have hrender : (Path.mk .relative (name :: rest)).render = joinNames (name :: rest) :=
        String.empty_append
      dsimp only
      rw [hrender, head?_joinNames hname, spelled]
      by_cases hhidden : IsHidden name
      · rw [if_pos hhidden, if_pos (beq_iff_eq.2 hhidden)]
      · rw [if_neg hhidden, if_neg (mt beq_iff_eq.1 hhidden)]
        exact (String.intercalate_cons_cons (s := "/") (t := ".")).symm

section

variable {way way' : List String}
  (hway : ∀ name ∈ way, name = ".." ∨ FileTree.isEntryName name = true)

theorem head?_joinNames_spelled (way : List String) :
    (joinNames (spelled way)).toList.head? = some '.' := by
  cases way with
  | nil => rfl
  | cons name rest =>
      rw [spelled]
      split
      · rename_i hhidden
        have hname : name ≠ "" := by
          rintro rfl
          cases hhidden
        rw [head?_joinNames hname]
        exact hhidden
      · rw [head?_joinNames (by decide)]
        rfl

include hway in
theorem slash_not_mem_spelled : ∀ name ∈ spelled way, '/' ∉ name.toList := by
  have hnames : ∀ name ∈ way, '/' ∉ name.toList := by
    intro name hname
    rcases hway name hname with rfl | hentry
    · decide
    · exact slash_not_mem_of_isEntryName hentry
  cases way with
  | nil => decide
  | cons first rest =>
      rw [spelled]
      split
      · exact hnames
      · rw [List.forall_mem_cons]
        exact ⟨by decide, hnames⟩

include hway in
/-- The specifier for a way is read back as the way. -/
theorem names_joinNames_spelled : Path.names (joinNames (spelled way)) = way := by
  have hkept : way.filter (!isIdle ·) = way := by
    rw [List.filter_eq_self]
    intro name hname
    rcases hway name hname with rfl | hentry
    · decide
    · obtain ⟨hne, hdot, -, -⟩ := FileTree.isEntryName_iff.1 hentry
      simp [isIdle, hne, hdot]
  have hspelled : (spelled way).filter (!isIdle ·) = way.filter (!isIdle ·) := by
    cases way with
    | nil => decide
    | cons first rest =>
        rw [spelled]
        split
        · rfl
        · exact List.filter_cons_of_neg (by decide)
  have hne : spelled way ≠ [] := by
    cases way with
    | nil => exact List.cons_ne_nil _ _
    | cons first rest =>
        rw [spelled]
        split <;> exact List.cons_ne_nil _ _
  rw [names_joinNames hne (slash_not_mem_spelled hway), hspelled, hkept]

end

/-! ### The same file -/

theorem textName_of_mem_wayTo (directory : List String) {file : Path} (hfile : file.IsCanonical) :
    ∀ name ∈ wayTo directory file.parts, name = ".." ∨ FileTree.isEntryName name = true :=
  fun name hname => (mem_wayTo hname).imp_right (hfile.hasEntryNames name)

theorem head?_rebase [Host] (ho : origin.IsCanonical) (ht : target.IsCanonical)
    (h : isRelativeSpecifier specifier = true) :
    (rebase specifier (some origin) (some target)).toList.head? = some '.' := by
  rw [rebase_eq ho ht h]
  exact head?_joinNames_spelled _

/-- In the other directory, a specifier that is written anew names the same. -/
theorem moduleAt_rebase [Host] (ho : origin.IsCanonical) (ht : target.IsCanonical)
    (h : isRelativeSpecifier specifier = true) :
    moduleAt target (rebase specifier (some origin) (some target)) = moduleAt origin specifier := by
  have hfile := isCanonical_moduleAt ho (head?_of_isRelativeSpecifier h)
  have hhead := head?_rebase ho ht h
  have hread : (ofString (rebase specifier (some origin) (some target))).parts =
      wayTo target.parts (moduleAt origin specifier).parts := by
    rw [rebase_eq ho ht h]
    exact names_joinNames_spelled (textName_of_mem_wayTo target.parts hfile)
  rw [(isCanonical_moduleAt ht hhead).eq_iff hfile, parts_moduleAt ht hhead, hread,
    placeOf_append_wayTo ht.dots_not_mem hfile.dots_not_mem]

/-- A relative specifier that is written anew leads from the other directory to the absolute path that the
old one leads to from its own, whatever the two directories have in common and wherever the specifier goes
on its way. -/
theorem normalize_join_rebase [Host] (ho : origin.IsCanonical) (ht : target.IsCanonical)
    (h : isRelativeSpecifier specifier = true) :
    (target.join (.ofString (rebase specifier (some origin) (some target)))).normalize =
        (origin.join (.ofString specifier)).normalize ∧
      (origin.join (.ofString specifier)).normalize.IsCanonical :=
  ⟨moduleAt_rebase ho ht h, isCanonical_moduleAt ho (head?_of_isRelativeSpecifier h)⟩

/-- The directory of a route file, one for emitted files, and one for what both use. -/
def usersDirectory : Path := ⟨.root, ["app", "users"]⟩

def apiDirectory : Path := ⟨.root, ["app", "api"]⟩

def libraryDirectory : Path := ⟨.root, ["app", "lib"]⟩

attribute [local instance] Host.solitary

/-- The specifier climbs above the root, with idle and empty names on its way. -/
theorem normalize_join_rebase_climbing :
    usersDirectory.IsCanonical ∧ apiDirectory.IsCanonical ∧
      isRelativeSpecifier "./..//../../../app/./db" = true ∧
      (apiDirectory.join (.ofString (rebase "./..//../../../app/./db" (some usersDirectory)
          (some apiDirectory)))).normalize =
        (usersDirectory.join (.ofString "./..//../../../app/./db")).normalize := by
  have ho : usersDirectory.IsCanonical := by decide
  have ht : apiDirectory.IsCanonical := by decide
  have h : isRelativeSpecifier "./..//../../../app/./db" = true := by decide
  exact ⟨ho, ht, h, (normalize_join_rebase ho ht h).1⟩

end RouteBinder.FileSystem
