import RouteBinder.Project.Build
import RouteBinder.Proofs.FileSystem.Places
import RouteBinder.Proofs.Route.KeyPaths
import RouteBinder.Proofs.Route.ShownNames

/-!
# RouteBinder.Proofs.Project.Build

**What a build makes of a directory.** `Build.Builds` and `Build.Attaches` are the runs of
`Build.ofTree` and `Build.attachAll` without their notices, with one rule for each way to go on. On top
of them:

* a built node has its children in order (`Build.Builds.ordered`);
* attaching a directory keeps what is there (`Build.child?_attach`), so it commutes with every change
  of a child that it does not bring itself (`Build.Attaches.setChild`); and
* every child of a built node is the node of a directory that shows up there
  (`Build.Builds.exists_showsNode`).
-/

namespace RouteBinder.FileSystem.Path

/-- The path of what stands at a place below a directory. -/
def descend (directory : Path) (place : List String) : Path :=
  { directory with parts := directory.parts ++ place }

@[simp] theorem descend_nil (directory : Path) : directory.descend [] = directory := by
  simp [descend]

theorem descend_cons (directory : Path) (name : String) (rest : List String) :
    directory.descend (name :: rest) = (directory.child name).descend rest := by
  simp [descend, child]

theorem descend_descend (directory : Path) (front back : List String) :
    (directory.descend front).descend back = directory.descend (front ++ back) := by
  simp [descend]

end RouteBinder.FileSystem.Path

namespace RouteBinder.Project

open FileSystem Route Analysis Body

namespace Build

variable {routeFile : String} {directory : Path}

/-! ### Attaching one directory -/

theorem isTaken_iff {name : String} {entry : FileTree} :
    isTaken name entry = true ↔
      (∃ entries, entry = .directory entries) ∧ RouteFiles.isIgnored name = false := by
  rw [isTaken, Bool.and_eq_true, Bool.not_eq_true']
  refine and_congr_left fun _ => ?_
  cases entry with
  | file content => simp [FileTree.isDirectory]
  | directory entries => simp [FileTree.isDirectory]

/-- The child that attaching a directory brings, if the key is not taken. -/
def brought (name : String) (subtree : RouteTree) (key : String) : Option RouteTree :=
  if Segment.isTransparentName name then subtree.child? key
  else if key = (Segment.classify name).key then some subtree else none

theorem ordered_bareNode (directory : Path) (analysis : ModuleAnalysis) :
    (bareNode directory analysis).Ordered := List.Pairwise.nil

@[simp] theorem child?_bareNode (directory : Path) (analysis : ModuleAnalysis) (key : String) :
    (bareNode directory analysis).child? key = none := rfl

theorem attach_of_transparent {name : String} (h : Segment.isTransparentName name = true)
    (subtree node : RouteTree) : attach name subtree node = node.merge subtree := by
  rw [attach]
  exact if_pos h

theorem attach_of_shown {name : String} (h : Segment.isTransparentName name = false)
    (subtree node : RouteTree) :
    attach name subtree node = node.addChild (Segment.classify name).key subtree := by
  rw [attach]
  exact if_neg (by simpa [Segment.isTransparentName] using h)

theorem ordered_attach {node : RouteTree} (h : node.Ordered) (name : String)
    (subtree : RouteTree) : (attach name subtree node).value.Ordered := by
  by_cases ht : Segment.isTransparentName name = true
  · rw [attach_of_transparent ht]
    exact h.merge subtree
  · rw [Bool.not_eq_true] at ht
    rw [attach_of_shown ht, RouteTree.addChild_eq_setChild]
    split
    · exact h
    · exact h.setChild _ _

theorem info_attach (name : String) (subtree node : RouteTree) :
    (attach name subtree node).value.info =
      if Segment.isTransparentName name then RouteTree.foldInfo node.info subtree.info
      else node.info := by
  by_cases ht : Segment.isTransparentName name = true
  · rw [attach_of_transparent ht, RouteTree.info_merge, if_pos ht]
  · rw [if_neg ht]
    rw [Bool.not_eq_true] at ht
    rw [attach_of_shown ht, RouteTree.addChild_eq_setChild]
    split
    · rfl
    · exact RouteTree.info_setChild _ _ _

/-- What is there first is kept. -/
theorem child?_attach (name : String) {subtree : RouteTree} (h : subtree.Ordered)
    (node : RouteTree) (key : String) :
    (attach name subtree node).value.child? key =
      (node.child? key).or (brought name subtree key) := by
  by_cases ht : Segment.isTransparentName name = true
  · rw [attach_of_transparent ht, RouteTree.child?_merge node h, brought, if_pos ht]
  · rw [brought, if_neg ht]
    rw [Bool.not_eq_true] at ht
    rw [attach_of_shown ht, RouteTree.addChild_eq_setChild]
    by_cases hk : key = (Segment.classify name).key
    · subst hk
      cases hc : node.child? (Segment.classify name).key with
      | none => simp
      | some child => simp [hc]
    · rw [if_neg hk, Option.or_none]
      split
      · rfl
      · exact RouteTree.child?_setChild_of_ne _ hk _

/-- Attaching commutes with changing a child that is not brought. -/
theorem attach_setChild {name key : String} {subtree node : RouteTree} (hs : subtree.Ordered)
    (hn : node.Ordered) (h : brought name subtree key = none) (new : Option RouteTree) :
    (attach name subtree (node.setChild key new)).value =
      (attach name subtree node).value.setChild key new := by
  refine RouteTree.ext_of_child? (ordered_attach (hn.setChild _ _) _ _)
    ((ordered_attach hn _ _).setChild _ _) ?_ fun other => ?_
  · rw [RouteTree.info_setChild, info_attach, info_attach, RouteTree.info_setChild]
  · rw [child?_attach name hs, RouteTree.child?_setChild, RouteTree.child?_setChild,
      child?_attach name hs]
    split
    · rename_i hk
      rw [hk, h, Option.or_none]
    · rfl

/-- A change inside a folded directory is a change of the node that it is folded into. -/
theorem attach_setChild_of_transparent {name key : String} {subtree node : RouteTree}
    (ht : Segment.isTransparentName name = true) (hs : subtree.Ordered) (hn : node.Ordered)
    (h : node.child? key = none) (new : Option RouteTree) :
    (attach name (subtree.setChild key new) node).value =
      (attach name subtree node).value.setChild key new := by
  refine RouteTree.ext_of_child? (ordered_attach hn _ _)
    ((ordered_attach hn _ _).setChild _ _) ?_ fun other => ?_
  · rw [RouteTree.info_setChild, info_attach, info_attach, RouteTree.info_setChild]
  · rw [child?_attach name (hs.setChild _ _), RouteTree.child?_setChild, child?_attach name hs,
      brought, brought, if_pos ht, if_pos ht, RouteTree.child?_setChild]
    split
    · rename_i hk
      rw [hk, h, Option.none_or]
    · rfl

/-- Attaching a directory that shows up, where its key is free, adds its node. -/
theorem attach_eq_setChild {name : String} {subtree node : RouteTree}
    (ht : Segment.isTransparentName name = false)
    (h : node.child? (Segment.classify name).key = none) :
    (attach name subtree node).value =
      node.setChild (Segment.classify name).key (some subtree) := by
  rw [attach_of_shown ht, RouteTree.addChild_eq_setChild, h]
  rfl

/-- Folding a directory with nothing in it changes nothing. -/
theorem attach_bareNode {name : String} {node : RouteTree} {directory : Path}
    (ht : Segment.isTransparentName name = true) (h : node.Ordered) :
    (attach name (bareNode directory {}) node).value = node := by
  refine RouteTree.ext_of_child? (ordered_attach h _ _) h ?_ fun key => ?_
  · rw [info_attach, if_pos ht]
    simp [RouteTree.foldInfo, bareNode, RouteTree.info]
  · rw [child?_attach name (ordered_bareNode directory _), brought, if_pos ht, child?_bareNode,
      Option.or_none]

variable [Recovery]

/-! ### Parts of a build -/

/-- What is known of the route file of a directory, by the text in it. -/
theorem analyzeFile_eq (directory : Path) (routeFile : String) (present : Option FileTree) :
    analyzeFile directory routeFile present =
      match present with
      | some (.file content) =>
        match FileTree.decode? content with
        | none => .ok ⟨{}, [.skippedFile (directory.child routeFile) .unreadable]⟩
        | some source =>
          match analyze source (some directory) with
          | .ok analysis => .ok ⟨analysis, []⟩
          | .error .syntaxErrors => .ok ⟨{}, [.skippedFile (directory.child routeFile) .syntaxErrors]⟩
          | .error (.circularReturn cause) => .error cause
      | _ => .ok ⟨{}, []⟩ := by
  have hparent : (directory.child routeFile).parent = directory := by
    simp [Path.child, Path.parent]
  match present with
  | none => rfl
  | some (.directory entries) => rfl
  | some (.file content) =>
      change heard _ (analyzeContent _ content) = _
      rw [analyzeContent, hparent]
      dsimp only
      cases FileTree.decode? content with
      | none => rfl
      | some source =>
          dsimp only
          cases analyze source (some directory) with
          | ok analysis => rfl
          | error cause => cases cause <;> rfl

/-- The trees of the directories of routes among the entries. -/
def subtreesOf (routeFile : String) (directory : Path) (entries : List (String × FileTree)) :
    Except CircularReturn (List (String × Noted RouteTree)) :=
  Id.run (subtreesFrom (m := Id) analyzeContent routeFile directory entries)

/-- Builds the directories of routes among the entries, and puts their trees into the node. -/
def attachAll (routeFile : String) (directory : Path) (node : Noted RouteTree)
    (entries : List (String × FileTree)) : Except CircularReturn (Noted RouteTree) :=
  (subtreesOf routeFile directory entries).map (attachSubtrees node)

theorem ofTree_directory (entries : List (String × FileTree)) :
    ofTree routeFile directory (.directory entries) =
      (analyzeFile directory routeFile (entries.lookup routeFile)).bind fun analysis =>
        attachAll routeFile directory (analysis.map (bareNode directory)) entries := by
  change (analyzeFile directory routeFile (entries.lookup routeFile)).bind (fun analysis =>
    (subtreesOf routeFile directory entries).bind fun subtrees =>
      .ok (attachSubtrees (analysis.map (bareNode directory)) subtrees)) = _
  cases analyzeFile directory routeFile (entries.lookup routeFile) with
  | error cause => rfl
  | ok analysis =>
      dsimp only [Except.bind, attachAll]
      cases subtreesOf routeFile directory entries <;> rfl

/-- It does not matter whether a subtree is attached before the next one is built. -/
theorem attachAll_cons_of_taken {name : String} {entry : FileTree} (h : isTaken name entry = true)
    (node : Noted RouteTree) (rest : List (String × FileTree)) :
    attachAll routeFile directory node ((name, entry) :: rest) =
      (ofTree routeFile (directory.child name) entry).bind fun subtree =>
        attachAll routeFile directory
          (node.bind fun above => subtree.bind fun below => attach name below above) rest := by
  rw [attachAll, subtreesOf, subtreesFrom, if_pos h]
  change Except.map _ ((ofTree routeFile (directory.child name) entry).bind fun subtree =>
    (subtreesOf routeFile directory rest).bind fun subtrees => .ok ((name, subtree) :: subtrees)) = _
  cases ofTree routeFile (directory.child name) entry with
  | error cause => rfl
  | ok subtree =>
      dsimp only [Except.bind, attachAll]
      cases subtreesOf routeFile directory rest <;> rfl

theorem attachAll_cons_of_not_taken {name : String} {entry : FileTree}
    (h : isTaken name entry = false) (node : Noted RouteTree)
    (rest : List (String × FileTree)) :
    attachAll routeFile directory node ((name, entry) :: rest) =
      attachAll routeFile directory node rest := by
  rw [attachAll, subtreesOf, subtreesFrom, if_neg (by simp [h])]
  rfl

theorem attachAll_nil (node : Noted RouteTree) :
    attachAll routeFile directory node [] = .ok node := rfl

theorem routeTree_eq [Host] (files : FileTree) (directory : Path) (routeFile : String) :
    routeTree files directory routeFile =
      match files.find? directory with
      | some tree => ofTree routeFile directory tree
      | none => .ok ⟨bareNode directory {}, []⟩ := by
  rw [routeTree, routeTreeFrom]
  cases files.find? directory <;> rfl

/-! ### Runs of a build -/

/-- The build of a directory gives the node. -/
def Builds (routeFile : String) (directory : Path) (tree : FileTree) (node : RouteTree) : Prop :=
  ∃ notices, ofTree routeFile directory tree = .ok ⟨node, notices⟩

/-- Attaching the entries of a directory to a node gives the result. -/
def Attaches (routeFile : String) (directory : Path) (node : RouteTree)
    (entries : List (String × FileTree)) (result : RouteTree) : Prop :=
  ∃ notices, attachAll routeFile directory ⟨node, []⟩ entries = .ok ⟨result, notices⟩

theorem Builds.unique {tree : FileTree} {a b : RouteTree} (ha : Builds routeFile directory tree a)
    (hb : Builds routeFile directory tree b) : a = b := by
  obtain ⟨notices, ha⟩ := ha
  obtain ⟨notices', hb⟩ := hb
  rw [ha] at hb
  cases hb
  rfl

theorem builds_file {content : ByteArray} {node : RouteTree} :
    Builds routeFile directory (.file content) node ↔ node = bareNode directory {} := by
  constructor
  · rintro ⟨notices, h⟩
    cases h
    rfl
  · rintro rfl
    exact ⟨[], rfl⟩

/-- What was reported before plays no part in what is attached. -/
theorem attachAll_notices (node : RouteTree) (notices : List Notice)
    (entries : List (String × FileTree)) :
    attachAll routeFile directory ⟨node, notices⟩ entries =
      (attachAll routeFile directory ⟨node, []⟩ entries).map fun result =>
        ⟨result.value, notices ++ result.notices⟩ := by
  induction entries generalizing node notices with
  | nil => simp [attachAll_nil, Except.map]
  | cons entry rest ih =>
      obtain ⟨name, entry⟩ := entry
      by_cases h : isTaken name entry = true
      · rw [attachAll_cons_of_taken h, attachAll_cons_of_taken h]
        cases ofTree routeFile (directory.child name) entry with
        | error cause => rfl
        | ok subtree =>
            simp only [Except.bind, Noted.bind]
            rw [ih, ih _ ([] ++ (subtree.notices ++ (attach name subtree.value node).notices))]
            cases attachAll routeFile directory
              ⟨(attach name subtree.value node).value, []⟩ rest with
            | error cause => rfl
            | ok result => simp [Except.map]
      · rw [Bool.not_eq_true] at h
        rw [attachAll_cons_of_not_taken h, attachAll_cons_of_not_taken h, ih]

theorem attaches_iff_of_notices {node result : RouteTree} (notices : List Notice)
    {entries : List (String × FileTree)} :
    Attaches routeFile directory node entries result ↔
      ∃ after, attachAll routeFile directory ⟨node, notices⟩ entries = .ok ⟨result, after⟩ := by
  rw [attachAll_notices]
  constructor
  · rintro ⟨after, h⟩
    exact ⟨notices ++ after, by rw [h]; rfl⟩
  · rintro ⟨after, h⟩
    cases hr : attachAll routeFile directory ⟨node, []⟩ entries with
    | error cause =>
        rw [hr] at h
        cases h
    | ok noted =>
        rw [hr] at h
        cases h
        exact ⟨noted.notices, hr⟩

theorem attaches_nil {node result : RouteTree} :
    Attaches routeFile directory node [] result ↔ result = node := by
  constructor
  · rintro ⟨notices, h⟩
    cases h
    rfl
  · rintro rfl
    exact ⟨[], rfl⟩

theorem attaches_cons_of_taken {name : String} {entry : FileTree} (h : isTaken name entry = true)
    {node result : RouteTree} {rest : List (String × FileTree)} :
    Attaches routeFile directory node ((name, entry) :: rest) result ↔
      ∃ subtree, Builds routeFile (directory.child name) entry subtree ∧
        Attaches routeFile directory (attach name subtree node).value rest result := by
  rw [Attaches, attachAll_cons_of_taken h]
  cases hb : ofTree routeFile (directory.child name) entry with
  | error cause =>
      constructor
      · rintro ⟨notices, ha⟩
        cases ha
      · rintro ⟨subtree, ⟨notices, hs⟩, -⟩
        rw [hb] at hs
        cases hs
  | ok subtree =>
      constructor
      · intro ha
        exact ⟨subtree.value, ⟨subtree.notices, hb⟩, (attaches_iff_of_notices _).2 ha⟩
      · rintro ⟨_, ⟨notices, hs⟩, ha⟩
        rw [hb] at hs
        cases hs
        exact (attaches_iff_of_notices _).1 ha

theorem attaches_cons_of_not_taken {name : String} {entry : FileTree}
    (h : isTaken name entry = false) {node result : RouteTree} {rest : List (String × FileTree)} :
    Attaches routeFile directory node ((name, entry) :: rest) result ↔
      Attaches routeFile directory node rest result := by
  rw [Attaches, attachAll_cons_of_not_taken h, Attaches]

theorem attaches_append {node result : RouteTree} {front back : List (String × FileTree)} :
    Attaches routeFile directory node (front ++ back) result ↔
      ∃ middle, Attaches routeFile directory node front middle ∧
        Attaches routeFile directory middle back result := by
  induction front generalizing node with
  | nil => simp [attaches_nil]
  | cons entry rest ih =>
      obtain ⟨name, entry⟩ := entry
      by_cases h : isTaken name entry = true
      · simp only [List.cons_append, attaches_cons_of_taken h, ih]
        constructor
        · rintro ⟨subtree, hs, middle, hm, hb⟩
          exact ⟨middle, ⟨subtree, hs, hm⟩, hb⟩
        · rintro ⟨middle, ⟨subtree, hs, hm⟩, hb⟩
          exact ⟨subtree, hs, middle, hm, hb⟩
      · rw [Bool.not_eq_true] at h
        simp only [List.cons_append, attaches_cons_of_not_taken h, ih]

/-- A directory is built from its route file and its entries. -/
theorem builds_directory {entries : List (String × FileTree)} {node : RouteTree} :
    Builds routeFile directory (.directory entries) node ↔
      ∃ analysis, analyzeFile directory routeFile (entries.lookup routeFile) = .ok analysis ∧
        Attaches routeFile directory (bareNode directory analysis.value) entries node := by
  rw [Builds, ofTree_directory]
  cases ha : analyzeFile directory routeFile (entries.lookup routeFile) with
  | error cause =>
      constructor
      · rintro ⟨notices, h⟩
        cases h
      · rintro ⟨analysis, h, -⟩
        cases h
  | ok analysis =>
      constructor
      · intro h
        exact ⟨analysis, rfl, (attaches_iff_of_notices analysis.notices).2 h⟩
      · rintro ⟨_, h, hn⟩
        cases h
        exact (attaches_iff_of_notices analysis.notices).1 hn

/-! ### Attaching many directories -/

/-- What holds of a node, and is kept when one entry is attached, holds when all are. -/
theorem Attaches.induction {P : RouteTree → Prop} {node result : RouteTree}
    {entries : List (String × FileTree)} (h : Attaches routeFile directory node entries result)
    (hnode : P node)
    (hattach : ∀ e ∈ entries, isTaken e.1 e.2 = true → ∀ subtree,
      Builds routeFile (directory.child e.1) e.2 subtree →
      ∀ above, P above → P (attach e.1 subtree above).value) : P result := by
  induction entries generalizing node with
  | nil => rwa [attaches_nil.1 h]
  | cons entry rest ih =>
      obtain ⟨name, entry⟩ := entry
      have hrest := fun e (he : e ∈ rest) => hattach e (List.mem_cons_of_mem _ he)
      by_cases ht : isTaken name entry = true
      · obtain ⟨subtree, hs, h⟩ := (attaches_cons_of_taken ht).1 h
        exact ih h (hattach _ List.mem_cons_self ht subtree hs node hnode) hrest
      · rw [Bool.not_eq_true] at ht
        exact ih ((attaches_cons_of_not_taken ht).1 h) hnode hrest

theorem Attaches.ordered {node result : RouteTree} {entries : List (String × FileTree)}
    (h : Attaches routeFile directory node entries result) (hn : node.Ordered) :
    result.Ordered :=
  h.induction hn fun e _ _ subtree _ _ habove => ordered_attach habove e.1 subtree

/-- A built node has its children in the order of their keys. -/
theorem Builds.ordered {tree : FileTree} {node : RouteTree}
    (h : Builds routeFile directory tree node) : node.Ordered := by
  cases tree with
  | file content =>
      rw [builds_file.1 h]
      exact ordered_bareNode directory _
  | directory entries =>
      obtain ⟨analysis, -, h⟩ := builds_directory.1 h
      exact h.ordered (ordered_bareNode directory _)

/-- Entries that do not bring a child with this key. -/
def Spares (routeFile : String) (directory : Path) (entries : List (String × FileTree))
    (key : String) : Prop :=
  ∀ e ∈ entries, isTaken e.1 e.2 = true → ∀ subtree,
    Builds routeFile (directory.child e.1) e.2 subtree → brought e.1 subtree key = none

theorem Spares.of_cons {entry : String × FileTree} {entries : List (String × FileTree)}
    {key : String} (h : Spares routeFile directory (entry :: entries) key) :
    Spares routeFile directory entries key :=
  fun e he => h e (List.mem_cons_of_mem _ he)

theorem Attaches.child?_of_some {node result child : RouteTree}
    {entries : List (String × FileTree)} (h : Attaches routeFile directory node entries result)
    {key : String} (hc : node.child? key = some child) : result.child? key = some child := by
  refine h.induction (P := fun above => above.child? key = some child) hc
    fun e _ _ subtree hs above habove => ?_
  rw [child?_attach e.1 hs.ordered, habove, Option.some_or]

theorem Attaches.child?_of_spares {node result : RouteTree} {entries : List (String × FileTree)}
    (h : Attaches routeFile directory node entries result) {key : String}
    (hk : Spares routeFile directory entries key) : result.child? key = node.child? key := by
  refine h.induction (P := fun above => above.child? key = node.child? key) rfl
    fun e he ht subtree hs above habove => ?_
  rw [child?_attach e.1 hs.ordered, hk e he ht subtree hs, Option.or_none, habove]

/-- Attaching entries commutes with changing a child that none of them brings. -/
theorem Attaches.setChild {node result : RouteTree} {entries : List (String × FileTree)}
    (h : Attaches routeFile directory node entries result) (hn : node.Ordered) {key : String}
    (hk : Spares routeFile directory entries key) (new : Option RouteTree) :
    Attaches routeFile directory (node.setChild key new) entries (result.setChild key new) := by
  induction entries generalizing node with
  | nil => rw [attaches_nil.1 h, attaches_nil]
  | cons entry rest ih =>
      obtain ⟨name, entry⟩ := entry
      by_cases ht : isTaken name entry = true
      · obtain ⟨subtree, hs, h⟩ := (attaches_cons_of_taken ht).1 h
        refine (attaches_cons_of_taken ht).2 ⟨subtree, hs, ?_⟩
        rw [attach_setChild hs.ordered hn (hk _ List.mem_cons_self ht subtree hs)]
        exact ih h (ordered_attach hn name subtree) hk.of_cons
      · rw [Bool.not_eq_true] at ht
        exact (attaches_cons_of_not_taken ht).2
          (ih ((attaches_cons_of_not_taken ht).1 h) hn hk.of_cons)

theorem Attaches.unique {node a b : RouteTree} {entries : List (String × FileTree)}
    (ha : Attaches routeFile directory node entries a)
    (hb : Attaches routeFile directory node entries b) : a = b := by
  obtain ⟨notices, ha⟩ := ha
  obtain ⟨notices', hb⟩ := hb
  rw [ha] at hb
  cases hb
  rfl

/-! ### Where children come from -/

/-- The directory at a place has a node of its own: no name on the way is ignored, and the last one
shows up in routes. -/
def Shows (tree : FileTree) (place : List String) : Prop :=
  Segment.EndsShown place ∧ (∀ name ∈ place, RouteFiles.isIgnored name = false) ∧
    ∃ entries, tree.at? place = some (.directory entries)

omit [Recovery] in
theorem shows_cons {entries : List (String × FileTree)} {name : String} {entry : FileTree}
    {rest : List String} (hl : entries.lookup name = some entry)
    (hi : RouteFiles.isIgnored name = false) (h : Shows entry rest) :
    Shows (.directory entries) (name :: rest) := by
  obtain ⟨hends, hignored, below, hat⟩ := h
  refine ⟨(Segment.endsShown_cons hends.ne_nil).2 hends, fun other ho => ?_, below, ?_⟩
  · rcases List.mem_cons.1 ho with rfl | ho
    · exact hi
    · exact hignored other ho
  · rw [FileTree.at?_directory_cons, hl]
    exact hat

/-- A child that attaching brings is there before, or one of the entries brings it. -/
theorem Attaches.exists_brought {node result child : RouteTree}
    {entries : List (String × FileTree)} (h : Attaches routeFile directory node entries result)
    {key : String} (hc : result.child? key = some child) (hn : node.child? key = none) :
    ∃ e ∈ entries, isTaken e.1 e.2 = true ∧ ∃ subtree,
      Builds routeFile (directory.child e.1) e.2 subtree ∧
        brought e.1 subtree key = some child := by
  induction entries generalizing node with
  | nil =>
      rw [attaches_nil.1 h, hn] at hc
      cases hc
  | cons entry rest ih =>
      obtain ⟨name, entry⟩ := entry
      by_cases ht : isTaken name entry = true
      · obtain ⟨subtree, hs, h⟩ := (attaches_cons_of_taken ht).1 h
        have hnext : (attach name subtree node).value.child? key = brought name subtree key := by
          rw [child?_attach name hs.ordered, hn, Option.none_or]
        -- The first entry that brings the key decides; later ones are refused.
        cases hb : brought name subtree key with
        | none =>
            obtain ⟨e, he, hrest⟩ := ih h (by rw [hnext, hb])
            exact ⟨e, List.mem_cons_of_mem _ he, hrest⟩
        | some other =>
            rw [h.child?_of_some (by rw [hnext, hb])] at hc
            cases hc
            exact ⟨_, List.mem_cons_self, ht, subtree, hs, hb⟩
      · rw [Bool.not_eq_true] at ht
        obtain ⟨e, he, hrest⟩ := ih ((attaches_cons_of_not_taken ht).1 h) hn
        exact ⟨e, List.mem_cons_of_mem _ he, hrest⟩

/-- The directory at a place shows up, and its build gives the node. -/
def ShowsNode (routeFile : String) (directory : Path) (tree : FileTree) (place : List String)
    (node : RouteTree) : Prop :=
  Shows tree place ∧
    ∃ entry, tree.at? place = some entry ∧ Builds routeFile (directory.descend place) entry node

/-- A child that attaching an entry brings is the node of a directory at or below the entry. -/
theorem exists_showsNode_of_brought {directory : Path} {entries : List (String × FileTree)}
    {name : String} {entry : FileTree} {subtree child : RouteTree} {key : String}
    (hw : (FileTree.directory entries).wellFormed = true) (hl : entries.lookup name = some entry)
    (ht : isTaken name entry = true) (hs : Builds routeFile (directory.child name) entry subtree)
    (hb : brought name subtree key = some child)
    (hsub : subtree.child? key = some child → ∃ rest,
      ShowsNode routeFile (directory.child name) entry rest child ∧ Segment.keys rest = [key]) :
    ∃ rest, ShowsNode routeFile directory (.directory entries) (name :: rest) child ∧
      Segment.keys (name :: rest) = [key] := by
  have hne : name ≠ "" :=
    (FileTree.isEntryName_iff.1 (FileTree.wellFormed_of_lookup hw hl).1).1
  have hat : ∀ rest, FileTree.at? (name :: rest) (.directory entries) = entry.at? rest := by
    intro rest
    rw [FileTree.at?_directory_cons, hl]
    rfl
  obtain ⟨⟨below, rfl⟩, hi⟩ := isTaken_iff.1 ht
  rw [brought] at hb
  by_cases hn : Segment.isTransparentName name = true
  · rw [if_pos hn] at hb
    obtain ⟨rest, ⟨hrest, inner, hinner, hbuilds⟩, hkeys⟩ := hsub hb
    refine ⟨rest, ⟨shows_cons hl hi hrest, inner, (hat rest).trans hinner, ?_⟩, ?_⟩
    · rwa [Path.descend_cons]
    · rw [Segment.keys_cons_of_transparent hne hn, hkeys]
  · rw [if_neg hn] at hb
    rw [Bool.not_eq_true] at hn
    -- A directory that shows up brings nothing but itself.
    split at hb
    · rename_i hk
      cases hb
      refine ⟨[], ⟨⟨Segment.endsShown_singleton.2 hn, fun other ho => ?_, below, hat []⟩,
        _, hat [], ?_⟩, ?_⟩
      · rw [List.mem_singleton.1 ho]
        exact hi
      · rwa [Path.descend_cons, Path.descend_nil]
      · rw [Segment.keys_cons_of_shown hne hn, Segment.keys_nil, hk]
    · cases hb

/-- Every child of a built node is the node of a directory that shows up with this key. -/
theorem Builds.exists_showsNode : ∀ {tree : FileTree} {directory : Path} {node child : RouteTree}
    {key : String}, tree.wellFormed = true → Builds routeFile directory tree node →
    node.child? key = some child →
    ∃ place, ShowsNode routeFile directory tree place child ∧ Segment.keys place = [key]
  | .file content, _, _, _, _, _, h, hc => by
      rw [builds_file.1 h] at hc
      cases hc
  | .directory entries, _, _, _, _, hw, h, hc => by
      obtain ⟨analysis, -, h⟩ := builds_directory.1 h
      obtain ⟨⟨name, entry⟩, he, ht, subtree, hs, hb⟩ := h.exists_brought hc rfl
      have hl : entries.lookup name = some entry :=
        (FileTree.wellFormed_directory.1 hw).1.lookup_of_mem he
      obtain ⟨rest, hrest, hkeys⟩ := exists_showsNode_of_brought hw hl ht hs hb fun hc =>
        Builds.exists_showsNode (FileTree.wellFormed_of_lookup hw hl).2 hs hc
      exact ⟨name :: rest, hrest, hkeys⟩
termination_by tree => sizeOf tree
decreasing_by
  have := List.sizeOf_lt_of_mem he
  simp at this ⊢
  omega

/-- Every child of a built node is a built node. -/
theorem Builds.exists_builds_child : ∀ {tree : FileTree} {directory : Path}
    {node child : RouteTree} {key : String}, Builds routeFile directory tree node →
    node.child? key = some child → ∃ place below, Builds routeFile place below child
  | .file content, _, _, _, _, h, hc => by
      rw [builds_file.1 h] at hc
      cases hc
  | .directory entries, _, _, _, _, h, hc => by
      obtain ⟨analysis, -, h⟩ := builds_directory.1 h
      obtain ⟨⟨name, entry⟩, he, -, subtree, hs, hb⟩ := h.exists_brought hc rfl
      rw [brought] at hb
      split at hb
      · exact Builds.exists_builds_child hs hb
      · split at hb
        · cases hb
          exact ⟨_, _, hs⟩
        · cases hb
termination_by tree => sizeOf tree
decreasing_by
  have := List.sizeOf_lt_of_mem he
  simp at this ⊢
  omega

/-- All nodes of a built tree are built. -/
theorem Builds.exists_builds_of_nodeAt? {tree : FileTree} {node found : RouteTree}
    {keys : List String} (h : Builds routeFile directory tree node)
    (hn : node.nodeAt? keys = some found) : ∃ place below, Builds routeFile place below found := by
  induction keys generalizing tree directory node with
  | nil =>
      cases hn
      exact ⟨_, _, h⟩
  | cons key rest ih =>
      rw [RouteTree.nodeAt?_cons_eq] at hn
      obtain ⟨child, hc, hn⟩ := Option.bind_eq_some_iff.1 hn
      obtain ⟨place, below, hchild⟩ := h.exists_builds_child hc
      exact ih hchild hn

/-- All nodes of a built tree have their children in order. -/
theorem Builds.allOrdered {tree : FileTree} {node : RouteTree}
    (h : Builds routeFile directory tree node) : node.AllOrdered := by
  intro keys found hn
  obtain ⟨place, below, hb⟩ := h.exists_builds_of_nodeAt? hn
  exact hb.ordered

/-- Nothing is brought where no directory at or below the entry shows up. -/
theorem brought_eq_none {directory : Path} {entries : List (String × FileTree)} {name : String}
    {entry : FileTree} {subtree : RouteTree} {key : String}
    (hw : (FileTree.directory entries).wellFormed = true) (hl : entries.lookup name = some entry)
    (ht : isTaken name entry = true) (hs : Builds routeFile (directory.child name) entry subtree)
    (h : ∀ rest, Shows (.directory entries) (name :: rest) →
      Segment.keys (name :: rest) ≠ [key]) : brought name subtree key = none := by
  cases hb : brought name subtree key with
  | none => rfl
  | some child =>
      obtain ⟨rest, hrest, hkeys⟩ := exists_showsNode_of_brought hw hl ht hs hb fun hc =>
        hs.exists_showsNode (FileTree.wellFormed_of_lookup hw hl).2 hc
      exact absurd hkeys (h rest hrest.1)

/-! ### Builds that come to an end -/

/-- The analysis of every route file comes to an end, with a result or with a report. -/
def Analyzable (routeFile : String) (directory : Path) (tree : FileTree) : Prop :=
  ∀ place content, (∀ name ∈ place, RouteFiles.isIgnored name = false) →
    tree.at? (place ++ [routeFile]) = some (.file content) →
    ∃ analysis, analyzeFile (directory.descend place) routeFile (some (.file content)) = .ok analysis

/-- Whether the analysis of a file comes to an end does not depend on where the file is. -/
theorem exists_analyzeFile_of {content : ByteArray} {other : Path} {otherFile : String}
    (h : ∃ analysis, analyzeFile other otherFile (some (.file content)) = .ok analysis) :
    ∃ analysis, analyzeFile directory routeFile (some (.file content)) = .ok analysis := by
  obtain ⟨analysis, h⟩ := h
  simp only [analyzeFile_eq, analyze] at h ⊢
  cases hd : FileTree.decode? content with
  | none => exact ⟨_, rfl⟩
  | some source =>
      rw [hd] at h
      dsimp only at h ⊢
      cases hp : Grammar.parse? source with
      | none => exact ⟨_, rfl⟩
      | some program =>
          rw [hp] at h
          dsimp only at h ⊢
          cases hm : (discoverHandlers program).mapM (describe program (Scope.ofModule program)) with
          | ok handlers => exact ⟨_, rfl⟩
          | error cause =>
              rw [hm] at h
              cases h

theorem Analyzable.of_at? {tree entry : FileTree} {place : List String}
    (h : Analyzable routeFile directory tree)
    (hi : ∀ name ∈ place, RouteFiles.isIgnored name = false) (hat : tree.at? place = some entry) :
    Analyzable routeFile (directory.descend place) entry := by
  intro rest content hrest hfile
  rw [Path.descend_descend]
  refine h (place ++ rest) content (fun name hn => ?_) ?_
  · rcases List.mem_append.1 hn with hn | hn
    · exact hi name hn
    · exact hrest name hn
  · rw [List.append_assoc, FileTree.at?_append, hat]
    exact hfile

theorem Analyzable.exists_analyzeFile {entries : List (String × FileTree)}
    (h : Analyzable routeFile directory (.directory entries)) :
    ∃ analysis, analyzeFile directory routeFile (entries.lookup routeFile) = .ok analysis := by
  cases hl : entries.lookup routeFile with
  | none => exact ⟨_, rfl⟩
  | some entry =>
      cases entry with
      | directory below => exact ⟨_, rfl⟩
      | file content =>
          have hfile := h [] content (fun name hn => absurd hn List.not_mem_nil)
            (by rw [List.nil_append, FileTree.at?_singleton, hl])
          rwa [Path.descend_nil] at hfile

theorem exists_attaches {entries : List (String × FileTree)}
    (h : ∀ e ∈ entries, isTaken e.1 e.2 = true →
      ∃ subtree, Builds routeFile (directory.child e.1) e.2 subtree) (node : RouteTree) :
    ∃ result, Attaches routeFile directory node entries result := by
  induction entries generalizing node with
  | nil => exact ⟨node, attaches_nil.2 rfl⟩
  | cons entry rest ih =>
      obtain ⟨name, entry⟩ := entry
      have hrest := ih fun e he => h e (List.mem_cons_of_mem _ he)
      by_cases ht : isTaken name entry = true
      · obtain ⟨subtree, hs⟩ := h _ List.mem_cons_self ht
        obtain ⟨result, hr⟩ := hrest (attach name subtree node).value
        exact ⟨result, (attaches_cons_of_taken ht).2 ⟨subtree, hs, hr⟩⟩
      · rw [Bool.not_eq_true] at ht
        obtain ⟨result, hr⟩ := hrest node
        exact ⟨result, (attaches_cons_of_not_taken ht).2 hr⟩

/-- The build of a directory only fails with the analysis of a route file. -/
theorem Analyzable.exists_builds : ∀ {tree : FileTree} {directory : Path},
    tree.wellFormed = true → Analyzable routeFile directory tree →
    ∃ node, Builds routeFile directory tree node
  | .file _, _, _, _ => ⟨_, builds_file.2 rfl⟩
  | .directory entries, directory, hw, h => by
      obtain ⟨analysis, ha⟩ := h.exists_analyzeFile
      have hbelow : ∀ e ∈ entries, isTaken e.1 e.2 = true →
          ∃ subtree, Builds routeFile (directory.child e.1) e.2 subtree := by
        rintro ⟨name, entry⟩ he ht
        have hl := (FileTree.wellFormed_directory.1 hw).1.lookup_of_mem he
        have hi : ∀ other ∈ [name], RouteFiles.isIgnored other = false := by
          intro other ho
          rw [List.mem_singleton.1 ho]
          exact (isTaken_iff.1 ht).2
        have hentry := h.of_at? hi ((FileTree.at?_singleton entries name).trans hl)
        rw [Path.descend_cons, Path.descend_nil] at hentry
        exact Analyzable.exists_builds (FileTree.wellFormed_of_lookup hw hl).2 hentry
      obtain ⟨node, hn⟩ := exists_attaches hbelow (bareNode directory analysis.value)
      exact ⟨node, builds_directory.2 ⟨analysis, ha, hn⟩⟩
termination_by tree => sizeOf tree
decreasing_by
  have := List.sizeOf_lt_of_mem he
  simp at this ⊢
  omega

theorem Attaches.exists_builds {node result : RouteTree} {entries : List (String × FileTree)}
    (h : Attaches routeFile directory node entries result) {name : String} {entry : FileTree}
    (he : (name, entry) ∈ entries) (ht : isTaken name entry = true) :
    ∃ subtree, Builds routeFile (directory.child name) entry subtree := by
  induction entries generalizing node with
  | nil => cases he
  | cons first rest ih =>
      obtain ⟨other, present⟩ := first
      by_cases ho : isTaken other present = true
      · obtain ⟨subtree, hs, hrest⟩ := (attaches_cons_of_taken ho).1 h
        rcases List.mem_cons.1 he with heq | he
        · cases heq
          exact ⟨subtree, hs⟩
        · exact ih hrest he
      · rcases List.mem_cons.1 he with heq | he
        · cases heq
          exact absurd ht ho
        · rw [Bool.not_eq_true] at ho
          exact ih ((attaches_cons_of_not_taken ho).1 h) he

/-- A build that comes to an end has analyzed every route file. -/
theorem Builds.analyzable {tree : FileTree} {node : RouteTree}
    (h : Builds routeFile directory tree node) : Analyzable routeFile directory tree := by
  intro place content hi hat
  induction place generalizing directory tree node with
  | nil =>
      cases tree with
      | file other => cases hat
      | directory entries =>
          rw [List.nil_append, FileTree.at?_singleton] at hat
          obtain ⟨analysis, ha, -⟩ := builds_directory.1 h
          rw [Path.descend_nil]
          exact ⟨analysis, hat ▸ ha⟩
  | cons name rest ih =>
      cases tree with
      | file other => cases hat
      | directory entries =>
          rw [List.cons_append, FileTree.at?_directory_cons] at hat
          obtain ⟨entry, hl, hat⟩ := Option.bind_eq_some_iff.1 hat
          -- The build went through every directory on the way.
          have ht : isTaken name entry = true := by
            cases entry with
            | directory below => exact isTaken_iff.2 ⟨⟨below, rfl⟩, hi name List.mem_cons_self⟩
            | file other =>
                rw [FileTree.at?_file _ (List.append_ne_nil_of_right_ne_nil _ (by simp))] at hat
                cases hat
          obtain ⟨analysis, -, hn⟩ := builds_directory.1 h
          obtain ⟨subtree, hs⟩ := hn.exists_builds (Keyed.mem_of_lookup hl) ht
          rw [Path.descend_cons]
          exact ih hs (fun other ho => hi other (List.mem_cons_of_mem _ ho)) hat

end Build

end RouteBinder.Project
