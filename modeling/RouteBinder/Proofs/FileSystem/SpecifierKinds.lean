import RouteBinder.Proofs.FileSystem.Specifiers

/-!
# RouteBinder.Proofs.FileSystem.SpecifierKinds

**What rewritten specifiers are taken for.** The beginning of a specifier tells whether it is one of a file
(`namesFile`), and whether it is written anew once more (`isRelativeSpecifier`). Both look at the first name
of the way: a dot in front of it is taken for the mark of a relative specifier already, although it may be
the dot of a hidden name, and a way of one or two dots alone has no slash behind them.

So `rebase` gives a specifier of a file exactly when the file is not in a hidden directory below the other
one (`namesFile_rebase_iff`), and it can be done in two steps exactly when the first step does not stop at
such a text, or the third directory has the same one (`rebase_rebase_iff`).
-/

namespace RouteBinder.FileSystem

open Text FileSystem.Path

/-! ### Kinds of specifiers -/

/-- Specifiers of files; all others name packages. -/
def namesFile (specifier : String) : Bool :=
  isRelativeSpecifier specifier || specifier == "." || specifier == ".."

theorem isRelativeSpecifier_iff {specifier : String} :
    isRelativeSpecifier specifier = true ↔
      namesFile specifier = true ∧ specifier ≠ "." ∧ specifier ≠ ".." := by
  have hdot : isRelativeSpecifier "." = false := by decide
  have hdots : isRelativeSpecifier ".." = false := by decide
  rw [namesFile, Bool.or_eq_true, Bool.or_eq_true, beq_iff_eq, beq_iff_eq]
  grind

section

variable {first : String} {rest : List String} (h : '/' ∉ first.toList)

include h in
theorem isRelativeSpecifier_joinNames :
    isRelativeSpecifier (joinNames (first :: rest)) = true ↔
      (first = "." ∨ first = "..") ∧ rest ≠ [] := by
  rw [isRelativeSpecifier, Bool.or_eq_true, List.isPrefixOf_iff_prefix, List.isPrefixOf_iff_prefix,
    toList_joinNames]
  cases rest with
  | nil =>
      have hslash : ∀ front : List Char, ¬ front ++ ['/'] <+: joinedNames [first] := by
        intro front hprefix
        have hmem := hprefix.subset (List.mem_append_right front List.mem_cons_self)
        exact h (by simpa [joinedNames] using hmem)
      simp only [ne_eq, not_true_eq_false, and_false, iff_false, not_or]
      exact ⟨hslash ['.'], hslash ['.', '.']⟩
  | cons next rest =>
      have hfirst : ∀ name : String, '/' ∉ name.toList →
          (name.toList ++ ['/'] <+: joinedNames (first :: next :: rest) ↔ first = name) := by
        intro name hname
        rw [joinedNames_cons_cons]
        constructor
        · rintro ⟨back, hback⟩
          rw [List.append_assoc, List.singleton_append] at hback
          have hsplit := congrArg (List.splitOn '/') hback
          rw [List.splitOn_append_cons_self, List.splitOn_append_cons_self,
            List.splitOn_eq_singleton hname, List.splitOn_eq_singleton h] at hsplit
          exact String.toList_inj.1 (List.cons.inj hsplit).1.symm
        · rintro rfl
          exact ⟨joinedNames (next :: rest), by rw [List.append_assoc, List.singleton_append]⟩
      rw [← hfirst "." (by decide), ← hfirst ".." (by decide)]
      exact (and_iff_left (List.cons_ne_nil _ _)).symm

include h in
theorem namesFile_joinNames :
    namesFile (joinNames (first :: rest)) = true ↔ first = "." ∨ first = ".." := by
  rw [namesFile, Bool.or_eq_true, Bool.or_eq_true, beq_iff_eq, beq_iff_eq,
    isRelativeSpecifier_joinNames h]
  cases rest with
  | nil =>
      rw [show joinNames [first] = first from String.intercalate_singleton]
      simp
  | cons next rest =>
      have hne : ∀ name : String, '/' ∉ name.toList → joinNames (first :: next :: rest) ≠ name := by
        rintro name hname rfl
        rw [toList_joinNames, joinedNames_cons_cons] at hname
        exact hname (List.mem_append_right _ List.mem_cons_self)
      simp [hne "." (by decide), hne ".." (by decide)]

end

section

variable {way : List String}
  (hway : ∀ name ∈ way, name = ".." ∨ FileTree.isEntryName name = true)

/-- The way leads into a hidden directory, or to a hidden file, in the directory where it begins. -/
def EntersHidden (way : List String) : Prop :=
  ∃ name rest, way = name :: rest ∧ name ≠ ".." ∧ IsHidden name

include hway in
theorem namesFile_spelled_iff : namesFile (joinNames (spelled way)) = true ↔ ¬ EntersHidden way := by
  have hslash := slash_not_mem_spelled hway
  cases way with
  | nil =>
      refine iff_of_true (by decide) ?_
      rintro ⟨name, rest, heq, -⟩
      cases heq
  | cons first rest =>
      have henters : EntersHidden (first :: rest) ↔ first ≠ ".." ∧ IsHidden first := by
        constructor
        · rintro ⟨name, rest', heq, hname⟩
          cases heq
          exact hname
        · exact fun hname => ⟨first, rest, rfl, hname⟩
      rw [henters, spelled]
      rw [spelled] at hslash
      by_cases hhidden : IsHidden first
      · have hdot : first ≠ "." := by
          rintro rfl
          exact absurd (hway "." List.mem_cons_self) (by decide)
        rw [if_pos hhidden] at hslash ⊢
        rw [namesFile_joinNames (hslash first List.mem_cons_self)]
        simp [hdot, hhidden]
      · rw [if_neg hhidden, namesFile_joinNames (by decide)]
        simp [hhidden]

include hway in
/-- A text that is read back as another way is another text. -/
theorem joinNames_spelled_eq_iff {other : List String}
    (hother : ∀ name ∈ other, name = ".." ∨ FileTree.isEntryName name = true) :
    joinNames (spelled way) = joinNames (spelled other) ↔ way = other := by
  constructor
  · intro h
    rw [← names_joinNames_spelled hway, h, names_joinNames_spelled hother]
  · rintro rfl
    rfl

include hway in
theorem isRelativeSpecifier_spelled_iff :
    isRelativeSpecifier (joinNames (spelled way)) = true ↔
      way ≠ [] ∧ way ≠ [".."] ∧ ¬ EntersHidden way := by
  have hdot : joinNames (spelled []) = "." := by decide
  have hdots : joinNames (spelled [".."]) = ".." := by decide
  rw [isRelativeSpecifier_iff, namesFile_spelled_iff hway, ne_eq, ne_eq, ← hdot, ← hdots,
    joinNames_spelled_eq_iff hway (by simp), joinNames_spelled_eq_iff hway (by simp)]
  exact and_rotate

end

/-! ### The kind of a specifier that is written anew -/

variable {origin target next : Path} {specifier : String}

theorem entersHidden_wayTo_iff {directory file : Path} (hfile : file.IsCanonical) :
    EntersHidden (wayTo directory.parts file.parts) ↔
      ∃ name rest, file.parts = directory.parts ++ name :: rest ∧ IsHidden name := by
  constructor
  · rintro ⟨name, rest, hway, hname, hhidden⟩
    exact ⟨name, rest, (wayTo_eq_cons_iff hname).1 hway, hhidden⟩
  · rintro ⟨name, rest, hparts, hhidden⟩
    have hname := hfile.ne_dots hparts
    exact ⟨name, rest, (wayTo_eq_cons_iff hname).2 hparts, hname, hhidden⟩

/-- A specifier that is written anew names a file, unless the file is behind a hidden name in the directory. -/
theorem namesFile_rebase_iff [Host] (ho : origin.IsCanonical) (ht : target.IsCanonical)
    (h : isRelativeSpecifier specifier = true) :
    namesFile (rebase specifier (some origin) (some target)) = true ↔
      ¬ ∃ name rest, (moduleAt origin specifier).parts = target.parts ++ name :: rest ∧
        IsHidden name := by
  have hfile := isCanonical_moduleAt ho (head?_of_isRelativeSpecifier h)
  rw [rebase_eq ho ht h, namesFile_spelled_iff (textName_of_mem_wayTo target.parts hfile),
    entersHidden_wayTo_iff hfile]

/-! ### Writing a specifier anew twice -/

theorem rebase_eq_self [Host] (h : isRelativeSpecifier specifier = false) (origin target : Option Path) :
    rebase specifier origin target = specifier := by
  cases origin with
  | none => rfl
  | some origin =>
      cases target with
      | none => rfl
      | some target => rw [rebase, h, if_neg Bool.false_ne_true]

/-- A specifier that is not written anew once more still has to be the right one. -/
theorem rebase_rebase_iff_wayTo [Host] (ho : origin.IsCanonical) (ht : target.IsCanonical)
    (hn : next.IsCanonical) (h : isRelativeSpecifier specifier = true) {file : Path}
    (hfile : moduleAt origin specifier = file) :
    rebase (rebase specifier (some origin) (some target)) (some target) (some next) =
        rebase specifier (some origin) (some next) ↔
      (wayTo target.parts file.parts = [] ∨ wayTo target.parts file.parts = [".."] ∨
          EntersHidden (wayTo target.parts file.parts) →
        wayTo target.parts file.parts = wayTo next.parts file.parts) := by
  have hcanonical := isCanonical_moduleAt ho (head?_of_isRelativeSpecifier h)
  have hsame := moduleAt_rebase ho ht h
  rw [hfile] at hcanonical hsame
  have hway := textName_of_mem_wayTo target.parts hcanonical
  have hkind := isRelativeSpecifier_spelled_iff hway
  rw [← hfile, ← rebase_eq ho ht h, hfile] at hkind
  rw [rebase_eq ho hn h, hfile]
  cases hrelative : isRelativeSpecifier (rebase specifier (some origin) (some target)) with
  | true =>
      rw [rebase_eq ht hn hrelative, hsame]
      refine iff_of_true rfl fun hstops => absurd hstops ?_
      rw [not_or, not_or]
      exact hkind.1 hrelative
  | false =>
      rw [rebase_eq_self hrelative, rebase_eq ho ht h, hfile,
        joinNames_spelled_eq_iff hway (textName_of_mem_wayTo next.parts hcanonical)]
      have hstops : wayTo target.parts file.parts = [] ∨ wayTo target.parts file.parts = [".."] ∨
          EntersHidden (wayTo target.parts file.parts) := by
        by_contra hgoes
        rw [not_or, not_or] at hgoes
        rw [hkind.2 hgoes] at hrelative
        cases hrelative
      exact ⟨fun heq _ => heq, fun hsame => hsame hstops⟩

/-- Two steps give what one step gives, unless the first one stops at the directory itself, at the directory
around it, or behind a hidden name, and the third directory does not lie the same way. -/
theorem rebase_rebase_iff [Host] (ho : origin.IsCanonical) (ht : target.IsCanonical)
    (hn : next.IsCanonical) (h : isRelativeSpecifier specifier = true) :
    rebase (rebase specifier (some origin) (some target)) (some target) (some next) =
        rebase specifier (some origin) (some next) ↔
      (moduleAt origin specifier = target → next = target) ∧
      (∀ name, target = (moduleAt origin specifier).child name →
        ∃ other, next = (moduleAt origin specifier).child other) ∧
      ∀ name rest, (moduleAt origin specifier).parts = target.parts ++ name :: rest →
        IsHidden name → next = target := by
  rw [rebase_rebase_iff_wayTo ho ht hn h rfl]
  have hfile := isCanonical_moduleAt ho (head?_of_isRelativeSpecifier h)
  generalize moduleAt origin specifier = file at hfile ⊢
  -- There is one condition for each kind of text at which the first step stops.
  rw [or_imp, or_imp]
  refine and_congr ?_ (and_congr ?_ ?_)
  · rw [wayTo_eq_nil_iff, eq_comm, ← hfile.eq_iff ht]
    refine imp_congr_right fun heq => ?_
    rw [heq, wayTo_self_eq_iff, hn.eq_iff ht]
  · rw [wayTo_eq_dots_iff hfile.dots_not_mem, forall_exists_index]
    refine forall_congr' fun name => ?_
    rw [hfile.eq_child_iff ht]
    refine imp_congr_right fun hparts => ?_
    rw [hparts, wayTo_child_eq_iff hfile.dots_not_mem]
    exact exists_congr fun other => (hfile.eq_child_iff hn).symm
  · rw [entersHidden_wayTo_iff hfile]
    simp only [forall_exists_index, and_imp]
    refine forall_congr' fun name => forall_congr' fun rest => imp_congr_right fun hparts => ?_
    rw [hparts, wayTo_below_eq_iff (hfile.ne_dots hparts), hn.eq_iff ht]

/-- A directory, and a hidden one in it. -/
def appDirectory : Path := ⟨.root, ["app"]⟩

def hiddenDirectory : Path := ⟨.root, ["app", ".h"]⟩

/-- A specifier that is written anew stays one of a file exactly when the file is not behind a hidden name in
the other directory. It can be written anew in two steps exactly when the first one neither stops at the
directory itself, nor at the one around it, nor behind a hidden name, or when the third directory lies there
the same way. -/
theorem rebase_chain_iff [Host] (ho : origin.IsCanonical) (ht : target.IsCanonical)
    (hn : next.IsCanonical) (h : isRelativeSpecifier specifier = true) :
    (namesFile (rebase specifier (some origin) (some target)) = true ↔
      ¬ ∃ name rest, (moduleAt origin specifier).parts = target.parts ++ name :: rest ∧
        IsHidden name) ∧
    (rebase (rebase specifier (some origin) (some target)) (some target) (some next) =
        rebase specifier (some origin) (some next) ↔
      (moduleAt origin specifier = target → next = target) ∧
      (∀ name, target = (moduleAt origin specifier).child name →
        ∃ other, next = (moduleAt origin specifier).child other) ∧
      ∀ name rest, (moduleAt origin specifier).parts = target.parts ++ name :: rest →
        IsHidden name → next = target) :=
  ⟨namesFile_rebase_iff ho ht h, rebase_rebase_iff ho ht hn h⟩

attribute [local instance] Host.solitary

/-- The file is in the third directory, beside the other two. -/
theorem rebase_chain_library :
    usersDirectory.IsCanonical ∧ apiDirectory.IsCanonical ∧ libraryDirectory.IsCanonical ∧
      isRelativeSpecifier "../lib/db" = true ∧
      namesFile (rebase "../lib/db" (some usersDirectory) (some apiDirectory)) = true ∧
      rebase (rebase "../lib/db" (some usersDirectory) (some apiDirectory)) (some apiDirectory)
          (some libraryDirectory) =
        rebase "../lib/db" (some usersDirectory) (some libraryDirectory) := by
  have ho : usersDirectory.IsCanonical := by decide
  have ht : apiDirectory.IsCanonical := by decide
  have hn : libraryDirectory.IsCanonical := by decide
  have h : isRelativeSpecifier "../lib/db" = true := by decide
  have hfile : moduleAt usersDirectory "../lib/db" = libraryDirectory.child "db" := by decide
  obtain ⟨hkind, htwice⟩ := rebase_chain_iff ho ht hn h
  rw [hfile] at hkind htwice
  refine ⟨ho, ht, hn, h, hkind.2 ?_, htwice.2 ⟨?_, ?_, ?_⟩⟩
  · rintro ⟨name, rest, hparts, -⟩
    simp [libraryDirectory, apiDirectory, Path.child] at hparts
  · exact fun heq => absurd heq (by decide)
  · intro name heq
    simp [libraryDirectory, apiDirectory, Path.child] at heq
  · intro name rest hparts
    simp [libraryDirectory, apiDirectory, Path.child] at hparts

/-- Outside a hidden directory, the specifier of what is in it names a package. And where the first step gives
a dot alone, the second one leaves it as it is. -/
theorem rebase_hidden_and_dot :
    appDirectory.IsCanonical ∧ hiddenDirectory.IsCanonical ∧ usersDirectory.IsCanonical ∧
      isRelativeSpecifier "./x" = true ∧ isRelativeSpecifier "./users" = true ∧
      rebase "./x" (some hiddenDirectory) (some appDirectory) = ".h/x" ∧
      namesFile (rebase "./x" (some hiddenDirectory) (some appDirectory)) = false ∧
      rebase "./users" (some appDirectory) (some usersDirectory) = "." ∧
      rebase (rebase "./users" (some appDirectory) (some usersDirectory)) (some usersDirectory)
          (some appDirectory) ≠
        rebase "./users" (some appDirectory) (some appDirectory) := by
  decide

end RouteBinder.FileSystem
