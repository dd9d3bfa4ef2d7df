import Mathlib.Data.String.Basic
import RouteBinder.Proofs.FileSystem.Changes
import RouteBinder.Proofs.Text.Lines

/-!
# RouteBinder.Proofs.FileSystem.PathText

**Paths as texts.** The text of an absolute path whose names could be those of entries is read back as
the path (`Path.ofString_render`). For two directories that are `Apart`, the texts of all paths below
them compare in the same way (`Path.render_lt_iff`): the texts already differ in front of the slash that
ends the directory.
-/

namespace RouteBinder.Text

/-- Where neither of two lists begins with the other, they compare like all lists that begin with
them. -/
theorem append_lt_append_iff {a b : List Char} (hab : ¬ a <+: b) (hba : ¬ b <+: a)
    (u v : List Char) : a ++ u < b ++ v ↔ a < b := by
  induction a generalizing b with
  | nil => exact absurd List.nil_prefix hab
  | cons x a ih =>
      cases b with
      | nil => exact absurd List.nil_prefix hba
      | cons y b =>
          rw [List.cons_prefix_cons, not_and] at hab hba
          rw [List.cons_append, List.cons_append, List.cons_lt_cons_iff, List.cons_lt_cons_iff]
          by_cases hxy : x = y
          · subst hxy
            rw [ih (hab rfl) (hba rfl)]
          · simp only [hxy, false_and]

end RouteBinder.Text

namespace RouteBinder.FileSystem.Path

open Text

/-- The names of the path could be those of entries. -/
def HasEntryNames (path : Path) : Prop :=
  ∀ name ∈ path.parts, FileTree.isEntryName name = true

/-- The names with slashes between them, as characters. -/
def joinedNames (names : List String) : List Char := ['/'].intercalate (names.map String.toList)

theorem toList_joinNames (names : List String) : (joinNames names).toList = joinedNames names := by
  rw [joinNames, String.toList_intercalate]
  rfl

/-- Names without slashes are told apart again. -/
theorem splitOn_joinedNames {names : List String} (hne : names ≠ [])
    (h : ∀ name ∈ names, '/' ∉ name.toList) :
    splitOn '/' (joinedNames names) = names.map String.toList := by
  rw [splitOn_eq, joinedNames, List.splitOn_intercalate]
  · intro characters hc
    obtain ⟨name, hname, rfl⟩ := List.mem_map.1 hc
    exact h name hname
  · exact fun hmap => hne (List.map_eq_nil_iff.1 hmap)

theorem slash_not_mem_of_isEntryName {name : String} (h : FileTree.isEntryName name = true) :
    '/' ∉ name.toList :=
  (FileTree.isEntryName_iff.1 h).2.2.2

theorem toList_render {path : Path} (habs : path.isAbsolute = true) :
    path.render.toList = List.replicate path.anchor.slashes '/' ++ joinedNames path.parts := by
  obtain ⟨anchor, parts⟩ := path
  have hrender : (Path.mk anchor parts).render =
      String.ofList (List.replicate anchor.slashes '/') ++ joinNames parts := by
    cases anchor with
    | relative => cases habs
    | root => rfl
    | alternateRoot => rfl
  rw [hrender, String.toList_append, String.toList_ofList, toList_joinNames]

theorem joinedNames_append {front back : List String} (hf : front ≠ []) (hb : back ≠ []) :
    joinedNames (front ++ back) = joinedNames front ++ '/' :: joinedNames back := by
  have h := congrArg String.toList (@String.intercalate_append_of_ne_nil front back "/" hf hb)
  simp only [String.toList_intercalate, String.toList_append, List.append_assoc] at h
  exact h

theorem joinedNames_cons {name : String} (hname : FileTree.isEntryName name = true)
    (rest : List String) : ∃ c characters, joinedNames (name :: rest) = c :: characters ∧ c ≠ '/' := by
  obtain ⟨hne, -, -, hslash⟩ := FileTree.isEntryName_iff.1 hname
  have hlist : name.toList ≠ [] := fun h => hne (String.toList_eq_nil_iff.1 h)
  obtain ⟨c, characters, hc⟩ := List.exists_cons_of_ne_nil hlist
  refine ⟨c, (joinedNames (name :: rest)).tail, ?_, ?_⟩
  · cases rest with
    | nil => simp [joinedNames, hc]
    | cons next rest =>
        have happend := joinedNames_append (List.cons_ne_nil name []) (List.cons_ne_nil next rest)
        rw [List.singleton_append] at happend
        rw [happend]
        simp [joinedNames, hc]
  · rintro rfl
    rw [hc] at hslash
    exact hslash List.mem_cons_self

theorem filter_isIdle {names : List String}
    (h : ∀ name ∈ names, FileTree.isEntryName name = true) (n : Nat) :
    ((List.replicate n [] ++ names.map String.toList).map String.ofList).filter (!isIdle ·) =
      names := by
  rw [List.map_append, List.filter_append, List.map_map]
  have hempty : ((List.replicate n []).map String.ofList).filter (!isIdle ·) = [] := by
    rw [List.map_replicate, List.filter_eq_nil_iff]
    intro name hname
    rw [List.eq_of_mem_replicate hname]
    decide
  have hnames : (names.map (String.ofList ∘ String.toList)).filter (!isIdle ·) = names := by
    have hid : names.map (String.ofList ∘ String.toList) = names := by
      simp [Function.comp_def]
    rw [hid, List.filter_eq_self]
    intro name hname
    obtain ⟨hne, hdot, -, -⟩ := FileTree.isEntryName_iff.1 (h name hname)
    simp [isIdle, hne, hdot]
  rw [hempty, hnames, List.nil_append]

/-- The text of a path is read back as the path. -/
theorem ofString_render {path : Path} (habs : path.isAbsolute = true) (hne : path.parts ≠ [])
    (h : path.HasEntryNames) : ofString path.render = path := by
  obtain ⟨anchor, parts⟩ := path
  have htext := @toList_render ⟨anchor, parts⟩ habs
  have hnames : names (Path.mk anchor parts).render = parts := by
    rw [names, htext, splitOn_replicate,
      splitOn_joinedNames hne fun name hname => slash_not_mem_of_isEntryName (h name hname)]
    exact filter_isIdle h _
  have hanchor : anchorOf (Path.mk anchor parts).render.toList = anchor := by
    obtain ⟨name, rest, rfl⟩ := List.exists_cons_of_ne_nil hne
    obtain ⟨c, characters, hc, hslash⟩ := joinedNames_cons (h name List.mem_cons_self) rest
    rw [anchorOf, htext, hc]
    cases anchor with
    | relative => cases habs
    | root => simp [Anchor.slashes, hslash]
    | alternateRoot => simp [Anchor.slashes, hslash]
  rw [ofString, hnames, hanchor]

/-! ### Order -/

/-- The text of everything below a directory begins with its names and a slash. -/
theorem toList_render_append {anchor : Anchor} {front back : List String}
    (habs : (Path.mk anchor front).isAbsolute = true) (hf : front ≠ []) (hb : back ≠ []) :
    (Path.mk anchor (front ++ back)).render.toList =
      (List.replicate anchor.slashes '/' ++ (joinedNames front ++ ['/'])) ++ joinedNames back := by
  have habs' : (Path.mk anchor (front ++ back)).isAbsolute = true := habs
  rw [toList_render habs', joinedNames_append hf hb]
  simp

/-- A directory whose text, with a slash behind it, begins that of another is on the way to it. -/
theorem prefix_of_joinedNames {a b : List String} (ha : a ≠ []) (hb : b ≠ [])
    (hane : ∀ name ∈ a, FileTree.isEntryName name = true)
    (hbne : ∀ name ∈ b, FileTree.isEntryName name = true)
    (h : joinedNames a ++ ['/'] <+: joinedNames b ++ ['/']) : a <+: b := by
  obtain ⟨rest, hrest⟩ := h
  have hsplit := congrArg (splitOn '/') hrest
  have hsplita := splitOn_joinedNames ha fun name hname =>
    slash_not_mem_of_isEntryName (hane name hname)
  have hsplitb := splitOn_joinedNames hb fun name hname =>
    slash_not_mem_of_isEntryName (hbne name hname)
  rw [splitOn_eq] at hsplita hsplitb
  rw [List.append_assoc, List.singleton_append, splitOn_eq, splitOn_eq,
    List.splitOn_append_cons_self, List.splitOn_append_cons_self, hsplita, hsplitb] at hsplit
  have hlength := congrArg List.length hsplit
  have hpos := List.length_pos_iff.2 (List.splitOn_ne_nil '/' rest)
  simp only [List.length_append, List.length_map, List.splitOn_nil, List.length_singleton] at hlength
  have hfront : a.map String.toList <+: b.map String.toList ++ List.splitOn '/' [] :=
    hsplit ▸ List.prefix_append _ _
  have hmap := List.prefix_of_prefix_length_le hfront (List.prefix_append _ _)
    (by simp only [List.length_map]; omega)
  exact (List.prefix_map_iff_of_injective fun _ _ => String.toList_inj.1).1 hmap

/-- The paths below two directories that are apart compare like any two such paths. -/
theorem render_lt_iff {anchor : Anchor} {a b x y u v : List String}
    (habs : (Path.mk anchor a).isAbsolute = true) (hane : a ≠ []) (hbne : b ≠ [])
    (ha : ∀ name ∈ a, FileTree.isEntryName name = true)
    (hb : ∀ name ∈ b, FileTree.isEntryName name = true) (hapart : Apart a b)
    (hx : x ≠ []) (hy : y ≠ []) (hu : u ≠ []) (hv : v ≠ []) :
    (Path.mk anchor (a ++ x)).render < (Path.mk anchor (b ++ y)).render ↔
      (Path.mk anchor (a ++ u)).render < (Path.mk anchor (b ++ v)).render := by
  have hcancel : ∀ {c d : List String}, c ≠ [] → d ≠ [] →
      (∀ name ∈ c, FileTree.isEntryName name = true) →
      (∀ name ∈ d, FileTree.isEntryName name = true) → ¬ c <+: d →
      ¬ List.replicate anchor.slashes '/' ++ (joinedNames c ++ ['/']) <+:
        List.replicate anchor.slashes '/' ++ (joinedNames d ++ ['/']) := by
    intro c d hc hd hcn hdn hcd h
    exact hcd (prefix_of_joinedNames hc hd hcn hdn ((List.prefix_append_right_inj _).1 h))
  have hb' : (Path.mk anchor b).isAbsolute = true := habs
  have hab := hcancel hane hbne ha hb hapart.1
  have hba := hcancel hbne hane hb ha hapart.2
  rw [String.lt_iff_toList_lt, String.lt_iff_toList_lt, toList_render_append habs hane hx,
    toList_render_append habs hane hu, toList_render_append hb' hbne hy,
    toList_render_append hb' hbne hv, append_lt_append_iff hab hba, append_lt_append_iff hab hba]

end RouteBinder.FileSystem.Path
