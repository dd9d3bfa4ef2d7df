import RouteBinder.Proofs.FileSystem.Places

/-!
# RouteBinder.Proofs.FileSystem.Resolution

**Where paths with `..` lead.** `FileTree.walk` goes up from the directory that it stands in, and
`Path.resolve` takes names back without looking at any directory. Both keep a stack, and
`FileTree.StandsIn` says that the two stacks belong together. So

* what a walk finds stands at the resolved path (`FileTree.at?_resolve_of_find?`); and
* a walk finds what stands there when it can pass through all directories on its way
  (`FileTree.find?_eq_at?_resolve`).
-/

namespace RouteBinder.FileSystem

namespace Path

/-! ### Names in resolved paths -/

/-- The names that a path is followed along, from the root. -/
def way [Host] (path : Path) : List String := (workingDirectory.join path).parts

/-- The place that names lead to from the root, when nothing is looked up. -/
def placeOf (names : List String) : List String := (names.foldl (walkBack true) []).reverse

theorem parts_resolve [Host] (path : Path) : path.resolve.parts = placeOf path.way := by
  rw [resolve, normalize, isAbsolute_join_workingDirectory]
  rfl

theorem placeOf_concat {name : String} (h : name ≠ "..") (names : List String) :
    placeOf (names ++ [name]) = placeOf names ++ [name] := by
  rw [placeOf, List.foldl_concat, walkBack_of_ne h, List.reverse_cons, placeOf]

theorem placeOf_concat_dots (names : List String) :
    placeOf (names ++ [".."]) = (placeOf names).dropLast := by
  have hdots := dots_not_mem_foldl_walkBack names List.not_mem_nil
  rw [placeOf, placeOf, List.foldl_concat, List.dropLast_reverse]
  cases hseen : names.foldl (walkBack true) [] with
  | nil => rfl
  | cons last rest =>
      rw [hseen, List.mem_cons, not_or] at hdots
      have hlast : (last == "..") = false := beq_eq_false_iff_ne.2 (Ne.symm hdots.1)
      simp [walkBack, hlast]

/-- A path without names is its own parent. -/
theorem parent_eq_self {path : Path} (h : path.parts = []) : path.parent = path := by
  obtain ⟨anchor, parts⟩ := path
  obtain rfl : parts = [] := h
  rfl

/-- Below the root, the way to a path goes on from the way to the directory around it. -/
theorem way_eq_concat [Host] {path : Path} (h : path.parts ≠ []) :
    path.way = path.parent.way ++ [path.name] := by
  have hparts : path.parts = path.parent.parts ++ [path.name] := by
    rw [name, List.getLast?_eq_some_getLast h]
    exact (List.dropLast_append_getLast h).symm
  have habs : path.parent.isAbsolute = path.isAbsolute := rfl
  rw [way, way, join, join, habs]
  split
  · exact hparts
  · exact (congrArg _ hparts).trans (List.append_assoc _ _ _).symm

theorem mem_walkBack {name other : String} {rooted : Bool} {seen : List String}
    (h : name ∈ walkBack rooted seen other) : name ∈ seen ∨ name = other := by
  unfold walkBack at h
  split at h
  · rename_i hother
    obtain rfl := beq_iff_eq.1 hother
    cases seen with
    | nil =>
        cases rooted with
        | true => cases h
        | false => exact Or.inr (List.mem_singleton.1 h)
    | cons last rest =>
        dsimp only at h
        split at h
        · rcases List.mem_cons.1 h with rfl | h
          · exact Or.inr rfl
          · exact Or.inl h
        · exact Or.inl (List.mem_cons_of_mem _ h)
  · rcases List.mem_cons.1 h with rfl | h
    · exact Or.inr rfl
    · exact Or.inl h

theorem mem_foldl_walkBack {name : String} {rooted : Bool} {names seen : List String}
    (h : name ∈ names.foldl (walkBack rooted) seen) : name ∈ seen ∨ name ∈ names := by
  induction names generalizing seen with
  | nil => exact Or.inl h
  | cons other rest ih =>
      rcases ih h with h | h
      · rcases mem_walkBack h with h | rfl
        · exact Or.inl h
        · exact Or.inr List.mem_cons_self
      · exact Or.inr (List.mem_cons_of_mem _ h)

theorem mem_of_mem_placeOf {name : String} {names : List String} (h : name ∈ placeOf names) :
    name ∈ names :=
  (mem_foldl_walkBack (List.mem_reverse.1 h)).resolve_left List.not_mem_nil

theorem dots_not_mem_placeOf (names : List String) : ".." ∉ placeOf names := fun h =>
  dots_not_mem_foldl_walkBack names List.not_mem_nil (List.mem_reverse.1 h)

theorem mem_way [Host] {name : String} {path : Path} (h : name ∈ path.way) :
    name ∈ workingDirectory.parts ∨ name ∈ path.parts := by
  rw [way, join] at h
  split at h
  · exact Or.inr h
  · exact List.mem_append.1 h

theorem mem_resolve [Host] {name : String} {path : Path} (h : name ∈ path.resolve.parts) :
    name ∈ workingDirectory.parts ∨ name ∈ path.parts :=
  mem_way (mem_of_mem_placeOf (parts_resolve path ▸ h))

/-- The text of a path has no empty names in it. -/
theorem empty_not_mem_resolve [Host] (text : String) : "" ∉ (ofString text).resolve.parts := by
  intro h
  rcases mem_resolve h with h | h
  · exact (FileTree.isEntryName_iff.1 (isEntryName_of_mem_workingDirectory h)).1 rfl
  · have := (List.mem_filter.1 h).2
    simp [isIdle] at this

end Path

/-! ### Walks -/

namespace FileTree

variable {root here result : FileTree} {seen names : List String} {above : List FileTree}

/-- Along these names, last one first, a walk has come to stand in `here`, below `above`. -/
inductive StandsIn (root : FileTree) : List String → List FileTree → FileTree → Prop where
  | root : StandsIn root [] [] root
  | entry {seen : List String} {above : List FileTree} {entries : List (String × FileTree)}
      {name : String} {entry : FileTree} (h : StandsIn root seen above (.directory entries))
      (hname : name ≠ "..") (hl : entries.lookup name = some entry) :
      StandsIn root (name :: seen) (.directory entries :: above) entry

theorem StandsIn.at? (h : StandsIn root seen above here) : root.at? seen.reverse = some here := by
  induction h with
  | root => rfl
  | entry h hname hl ih =>
      rw [List.reverse_cons, at?_append, ih]
      exact (at?_singleton _ _).trans hl

/-- Going up takes the last name back. -/
theorem StandsIn.up {entries : List (String × FileTree)}
    (h : StandsIn root seen above (.directory entries)) (rest : List String) :
    ∃ seen' above' here', StandsIn root seen' above' here' ∧ Path.walkBack true seen ".." = seen' ∧
      walk above (.directory entries) (".." :: rest) = walk above' here' rest := by
  cases h with
  | root => exact ⟨[], [], .directory entries, .root, rfl, rfl⟩
  | @entry seen above outer name _ h hname hl =>
      refine ⟨seen, above, .directory outer, h, ?_, rfl⟩
      have hlast : (name == "..") = false := beq_eq_false_iff_ne.2 hname
      simp [Path.walkBack, hlast]

theorem walk_cons_of_ne {name : String} (h : name ≠ "..") (above : List FileTree)
    (entries : List (String × FileTree)) (rest : List String) :
    walk above (.directory entries) (name :: rest) =
      match entries.lookup name with
      | some entry => walk (.directory entries :: above) entry rest
      | none => none := by
  have hname : (name == "..") = false := beq_eq_false_iff_ne.2 h
  cases hl : entries.lookup name with
  | none => simp [walk, hname, hl]
  | some entry => simp [walk, hname, hl]

/-- In the middle of a walk, it has come to where its names so far lead when they are taken back. -/
theorem StandsIn.walk_append (h : StandsIn root seen above here) {front back : List String}
    (hw : FileTree.walk above here (front ++ back) = some result) :
    ∃ above' middle, StandsIn root (front.foldl (Path.walkBack true) seen) above' middle ∧
      FileTree.walk above' middle back = some result := by
  induction front generalizing seen above here with
  | nil => exact ⟨above, here, h, hw⟩
  | cons name rest ih =>
      cases here with
      | file content => cases hw
      | directory entries =>
          rw [List.cons_append] at hw
          rw [List.foldl_cons]
          by_cases hname : name = ".."
          · subst hname
            obtain ⟨seen', above', here', h', hseen, hwalk⟩ := h.up (rest ++ back)
            rw [hseen]
            exact ih h' (hwalk ▸ hw)
          · rw [walk_cons_of_ne hname] at hw
            rw [Path.walkBack_of_ne hname]
            cases hl : entries.lookup name with
            | none =>
                rw [hl] at hw
                cases hw
            | some entry =>
                rw [hl] at hw
                exact ih (h.entry hname hl) hw

/-- A walk ends where its names lead when they are taken back. -/
theorem StandsIn.walk (h : StandsIn root seen above here)
    (hw : FileTree.walk above here names = some result) :
    ∃ above', StandsIn root (names.foldl (Path.walkBack true) seen) above' result := by
  rw [← List.append_nil names] at hw
  obtain ⟨above', middle, hstands, hend⟩ := h.walk_append hw
  cases hend
  exact ⟨above', hstands⟩

/-- What is found at a path stands where the path is resolved to. -/
theorem at?_resolve_of_find? [Host] {path : Path} (h : root.find? path = some result) :
    root.at? path.resolve.parts = some result := by
  obtain ⟨above, hstands⟩ := StandsIn.root.walk h
  rw [Path.parts_resolve]
  exact hstands.at?

/-- The way up leads to a directory. -/
theorem StandsIn.isDirectory_of_dots (h : StandsIn root seen above here)
    (hw : FileTree.walk above here [".."] = some result) : result.isDirectory = true := by
  cases here with
  | file content => cases hw
  | directory entries =>
      cases h with
      | root =>
          cases hw
          rfl
      | entry h hname hl =>
          cases hw
          rfl

/-- The path of a file ends with the name under which the file stands. -/
theorem name_resolve_of_find?_file [Host] {path : Path} {content : ByteArray}
    (h : root.find? path = some (.file content)) (hparts : path.parts ≠ []) :
    path.resolve.name = path.name := by
  have hway := Path.way_eq_concat hparts
  have hname : path.name ≠ ".." := by
    intro hdots
    change FileTree.walk [] root path.way = _ at h
    rw [hway, hdots] at h
    obtain ⟨above, middle, hstands, hend⟩ := StandsIn.root.walk_append h
    cases hstands.isDirectory_of_dots hend
  rw [Path.name, Path.parts_resolve, hway, Path.placeOf_concat hname, List.getLast?_concat]
  rfl

/-! ### Walks that can pass -/

/-- The names only lead through directories that are there. -/
def Passable (root : FileTree) (names : List String) : Prop :=
  ∀ front, front <+: names → ∃ entries, root.at? (Path.placeOf front) = some (.directory entries)

theorem Passable.of_prefix {front : List String} (h : Passable root names) (hf : front <+: names) :
    Passable root front := fun first hfirst => h first (hfirst.trans hf)

theorem Passable.directory (h : Passable root names) :
    ∃ entries, root.at? (Path.placeOf names) = some (.directory entries) :=
  h names List.prefix_rfl

theorem passable_concat {name : String} :
    Passable root (names ++ [name]) ↔
      Passable root names ∧
        ∃ entries, root.at? (Path.placeOf (names ++ [name])) = some (.directory entries) := by
  constructor
  · intro h
    exact ⟨h.of_prefix (List.prefix_append _ _), h.directory⟩
  · rintro ⟨h, hlast⟩ front hfront
    rcases List.prefix_concat_iff.1 hfront with rfl | hfront
    · exact hlast
    · exact h front hfront

/-- Where a walk can pass through everything on its way, it ends at the place that its names lead
to. -/
theorem StandsIn.walk_eq_at? (h : StandsIn root seen above here)
    (hpass : ∀ front back, names = front ++ back → back ≠ [] →
      ∃ entries, root.at? (front.foldl (Path.walkBack true) seen).reverse =
        some (.directory entries)) :
    FileTree.walk above here names =
      root.at? (names.foldl (Path.walkBack true) seen).reverse := by
  induction names generalizing seen above here with
  | nil => exact h.at?.symm
  | cons name rest ih =>
      obtain ⟨entries, hhere⟩ := hpass [] (name :: rest) rfl (List.cons_ne_nil _ _)
      obtain rfl := Option.some.inj (h.at?.symm.trans hhere)
      have hrest : ∀ seen', Path.walkBack true seen name = seen' → ∀ front back,
          rest = front ++ back → back ≠ [] →
          ∃ entries, root.at? (front.foldl (Path.walkBack true) seen').reverse =
            some (.directory entries) := by
        intro seen' hseen front back heq hback
        subst hseen
        exact hpass (name :: front) back (congrArg (name :: ·) heq) hback
      rw [List.foldl_cons]
      by_cases hname : name = ".."
      · subst hname
        obtain ⟨seen', above', here', h', hseen, hwalk⟩ := h.up rest
        rw [hwalk, ih h' (hrest seen' hseen), hseen]
      · have hseen := Path.walkBack_of_ne hname true seen
        rw [walk_cons_of_ne hname, hseen]
        cases hl : entries.lookup name with
        | some entry => exact ih (h.entry hname hl) (hrest _ hseen)
        -- A name that is not there is the last one.
        | none =>
            have hnone : root.at? (name :: seen).reverse = none := by
              rw [List.reverse_cons, at?_append, h.at?]
              exact (at?_singleton _ _).trans hl
            by_cases hr : rest = []
            · subst hr
              exact hnone.symm
            · obtain ⟨below, hbelow⟩ := hrest _ hseen [] rest rfl hr
              rw [List.foldl_nil, hnone] at hbelow
              cases hbelow

/-- A path leads where it is resolved to, when all directories on its way are there. -/
theorem find?_eq_at?_resolve [Host] {path : Path} (h : Passable root path.way.dropLast) :
    root.find? path = root.at? path.resolve.parts := by
  rw [Path.parts_resolve]
  refine StandsIn.root.walk_eq_at? fun front back heq hback => h front ?_
  change path.way = front ++ back at heq
  rw [heq, List.dropLast_append_of_ne_nil hback]
  exact List.prefix_append _ _

end FileTree

end RouteBinder.FileSystem
