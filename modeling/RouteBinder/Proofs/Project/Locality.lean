import RouteBinder.Proofs.Project.Build

/-!
# RouteBinder.Proofs.Project.Locality

**A change at one place changes one node.** When two file trees agree outside a place, and the
directories on the way to it share their keys with no others, the node that a build makes of one tree
becomes the node of the other by a replacement at the keys of the place
(`Build.replaceWithin_of_agreeOutside`).

The proof follows the names of the place. At each level the entries around the next name are the same
in both trees, and none of them brings a child with the first key of the place
(`Build.spares_of_unshadowed`); so whatever happens at that key commutes with attaching them
(`Build.Attaches.setChild`).
-/

namespace RouteBinder.Project

open FileSystem Route Analysis Body

namespace Build

variable {routeFile : String} {directory : Path}

/-! ### Places with a node of their own -/

/-- No other directory has the keys of the place, or of a directory on the way to it. -/
def Unshadowed (tree : FileTree) (place : List String) : Prop :=
  ∀ front back, place = front ++ back → Segment.EndsShown front →
    ∀ other, Shows tree other → Segment.keys other = Segment.keys front → other = front

/-- Above the place, every directory that shows up is there. -/
def WayThere (tree : FileTree) (place : List String) : Prop :=
  ∀ front back, place = front ++ back → back ≠ [] → Segment.EndsShown front →
    ∃ entries, tree.at? front = some (.directory entries)

/-- What a build makes of the directory at a place: nothing when there is none. -/
def NodeAt [Recovery] (routeFile : String) (directory : Path) (tree : FileTree) (place : List String) :
    Option RouteTree → Prop
  | some node => ∃ entries, tree.at? place = some (.directory entries) ∧
      Builds routeFile (directory.descend place) (.directory entries) node
  | none => ∀ entries, tree.at? place ≠ some (.directory entries)

/-- The place is not that of a route file, unless it holds no file. -/
def NoRouteFileAt (routeFile : String) (tree : FileTree) (place : List String) : Prop :=
  place.getLast? = some routeFile → ∀ content, tree.at? place ≠ some (.file content)

variable {entries : List (String × FileTree)} {name : String} {entry : FileTree}
  {rest : List String}

/-- What shows up under a name of a directory shows up in the directory. -/
theorem Shows.of_under (hi : RouteFiles.isIgnored name = false)
    (h : Shows (FileTree.under name entries) rest) : Shows (.directory entries) (name :: rest) := by
  obtain ⟨hends, hignored, below, hat⟩ := h
  refine ⟨(Segment.endsShown_cons hends.ne_nil).2 hends, fun other ho => ?_, below, ?_⟩
  · rcases List.mem_cons.1 ho with rfl | ho
    · exact hi
    · exact hignored other ho
  · rw [FileTree.at?_cons_eq_under entries name hends.ne_nil]
    exact hat

theorem Unshadowed.tail (hname : name ≠ "") (hi : RouteFiles.isIgnored name = false)
    (h : Unshadowed (.directory entries) (name :: rest)) :
    Unshadowed (FileTree.under name entries) rest := by
  intro front back hplace hends other hother hkeys
  have heq := h (name :: front) back (by rw [hplace]; rfl)
    ((Segment.endsShown_cons hends.ne_nil).2 hends) (name :: other) (hother.of_under hi)
    (by rw [Segment.keys_cons hname, Segment.keys_cons hname, hkeys])
  exact (List.cons.inj heq).2

theorem WayThere.tail (h : WayThere (.directory entries) (name :: rest)) :
    WayThere (FileTree.under name entries) rest := by
  intro front back hplace hback hends
  obtain ⟨below, hbelow⟩ := h (name :: front) back (by rw [hplace]; rfl) hback
    ((Segment.endsShown_cons hends.ne_nil).2 hends)
  rw [FileTree.at?_cons_eq_under entries name hends.ne_nil] at hbelow
  exact ⟨below, hbelow⟩

theorem NodeAt.tail [Recovery] (hr : rest ≠ []) {new : Option RouteTree}
    (h : NodeAt routeFile directory (.directory entries) (name :: rest) new) :
    NodeAt routeFile (directory.child name) (FileTree.under name entries) rest new := by
  cases new with
  | none =>
      intro below
      rw [← FileTree.at?_cons_eq_under entries name hr]
      exact h below
  | some node =>
      obtain ⟨below, hbelow, hb⟩ := h
      rw [FileTree.at?_cons_eq_under entries name hr] at hbelow
      rw [Path.descend_cons] at hb
      exact ⟨below, hbelow, hb⟩

theorem NoRouteFileAt.tail (hr : rest ≠ [])
    (h : NoRouteFileAt routeFile (.directory entries) (name :: rest)) :
    NoRouteFileAt routeFile (FileTree.under name entries) rest := by
  intro hlast content
  rw [← FileTree.at?_cons_eq_under entries name hr]
  exact h (by rw [List.getLast?_cons, hlast]; rfl) content

/-- A tree in which a change at the place stays with the node of the place. -/
structure Isolates (routeFile : String) (tree : FileTree) (place : List String) : Prop where
  wellFormed : tree.wellFormed = true
  unshadowed : Unshadowed tree place
  wayThere : WayThere tree place
  noRouteFile : NoRouteFileAt routeFile tree place

theorem Isolates.tail (hname : name ≠ "") (hi : RouteFiles.isIgnored name = false) (hr : rest ≠ [])
    (h : Isolates routeFile (.directory entries) (name :: rest)) :
    Isolates routeFile (FileTree.under name entries) rest where
  wellFormed := FileTree.wellFormed_under h.wellFormed name
  unshadowed := h.unshadowed.tail hname hi
  wayThere := h.wayThere.tail
  noRouteFile := h.noRouteFile.tail hr

/-- On the way to the place, a directory that shows up is there. -/
theorem Isolates.lookup_eq {next : String} {back : List String}
    {below : List (String × FileTree)}
    (h : Isolates routeFile (.directory entries) (name :: next :: back))
    (ht : Segment.isTransparentName name = false)
    (hu : FileTree.under name entries = .directory below) :
    entries.lookup name = some (.directory below) := by
  obtain ⟨below', hbelow⟩ := h.wayThere [name] (next :: back) rfl (List.cons_ne_nil _ _)
    (Segment.endsShown_singleton.2 ht)
  rw [FileTree.at?_singleton] at hbelow
  rw [FileTree.under, hbelow] at hu
  rw [hbelow]
  exact congrArg some hu

theorem lookup_eq_file {content : ByteArray} (hu : FileTree.under name entries = .file content) :
    entries.lookup name = some (.file content) := by
  rw [FileTree.under] at hu
  cases hl : entries.lookup name with
  | none =>
      rw [hl] at hu
      cases hu
  | some entry =>
      rw [hl] at hu
      exact congrArg some hu

/-! ### What stands around the way -/

variable [Recovery]

/-- The entries beside the way to an unshadowed place do not bring its first key. -/
theorem spares_of_unshadowed {key : String} {keys : List String} {part : List (String × FileTree)}
    (hw : (FileTree.directory entries).wellFormed = true) (hne : "" ∉ name :: rest)
    (hends : Segment.EndsShown (name :: rest))
    (hkeys : Segment.keys (name :: rest) = key :: keys)
    (hun : Unshadowed (.directory entries) (name :: rest))
    (hpart : ∀ e ∈ part, e ∈ entries ∧ e.1 ≠ name) :
    Spares routeFile directory part key := by
  intro e he ht subtree hs
  obtain ⟨hmem, hother⟩ := hpart e he
  have hl := (FileTree.wellFormed_directory.1 hw).1.lookup_of_mem hmem
  refine brought_eq_none hw hl ht hs fun below hbelow heq => hother ?_
  obtain ⟨first, back, first', hplace, hfirst, hkey, hkeys'⟩ :=
    Segment.exists_first_shown hne hends
  have hsame : first' = key := by
    rw [hkeys] at hkeys'
    exact (List.cons.inj hkeys').1.symm
  have := hun first back hplace hfirst _ hbelow (by rw [heq, hkey, hsame])
  rw [← this, List.cons_append] at hplace
  exact (List.cons.inj hplace).1.symm

/-- No child has the key of a place that ends the way of shown names and holds no directory. -/
theorem child?_eq_none_of_absent {tree : FileTree} {node : RouteTree} {place : List String}
    {key : String} (hw : tree.wellFormed = true) (h : Builds routeFile directory tree node)
    (hends : Segment.EndsShown place) (hkeys : Segment.keys place = [key])
    (hun : Unshadowed tree place) (hnone : ∀ below, tree.at? place ≠ some (.directory below)) :
    node.child? key = none := by
  cases hc : node.child? key with
  | none => rfl
  | some child =>
      obtain ⟨other, ⟨hother, -⟩, hkey⟩ := h.exists_showsNode hw hc
      have := hun place [] (by rw [List.append_nil]) hends other hother (by rw [hkey, hkeys])
      subst this
      obtain ⟨-, -, below, hbelow⟩ := hother
      exact absurd hbelow (hnone below)

/-- Where the way does not lead to the place, there is nothing to replace. -/
theorem replaceWithin_of_absent {path place : List String} {new : Option RouteTree}
    {tree : FileTree} {node : RouteTree} (hne : "" ∉ place) (hends : Segment.EndsShown place)
    (hiso : Isolates routeFile tree place) (h : Builds routeFile directory tree node)
    (hnew : NodeAt routeFile directory tree place new)
    (hnone : ∀ front back, place = front ++ back → front ≠ [] →
      ∀ below, tree.at? front ≠ some (.directory below)) :
    node.replaceWithin path new (Segment.keys place) = .ok node := by
  have hplace := hnone place [] (by rw [List.append_nil]) hends.ne_nil
  cases new with
  | some node' =>
      obtain ⟨below, hbelow, -⟩ := hnew
      exact absurd hbelow (hplace below)
  | none =>
      obtain ⟨first, back, key, heq, hfirst, hkey, hkeys⟩ := Segment.exists_first_shown hne hends
      have hback : back = [] := by
        by_contra hback
        obtain ⟨below, hbelow⟩ := hiso.wayThere first back heq hback hfirst
        exact hnone first back heq hfirst.ne_nil below hbelow
      subst hback
      rw [Segment.keys_nil] at hkeys
      have hc := child?_eq_none_of_absent hiso.wellFormed h hends hkeys hiso.unshadowed hplace
      have hset := RouteTree.setChild_child? h.ordered key
      rw [hc] at hset
      rw [hkeys, RouteTree.replaceWithin_singleton, hset]

/-! ### Entries around a name -/

/-- Attaching the entries of a directory, with one entry in the middle. -/
theorem Attaches.around {node result : RouteTree}
    (h : Attaches routeFile directory node entries result) (hs : Keyed.Sorted entries)
    (name : String) :
    ∃ middle next, Attaches routeFile directory node (Keyed.before name entries) middle ∧
      Attaches routeFile directory middle
        ((entries.lookup name).map fun entry => (name, entry)).toList next ∧
      Attaches routeFile directory next (Keyed.behind name entries) result := by
  rw [hs.eq_around name] at h
  obtain ⟨middle, hm, h⟩ := attaches_append.1 h
  obtain ⟨next, hn, h⟩ := attaches_append.1 h
  exact ⟨middle, next, hm, hn, h⟩

omit [Recovery] in
theorem mem_before {e : String × FileTree} (h : e ∈ Keyed.before name entries) :
    e ∈ entries ∧ e.1 ≠ name := by
  obtain ⟨hmem, hlt⟩ := List.mem_filter.1 h
  exact ⟨hmem, (of_decide_eq_true hlt).ne⟩

omit [Recovery] in
theorem mem_behind {e : String × FileTree} (h : e ∈ Keyed.behind name entries) :
    e ∈ entries ∧ e.1 ≠ name := by
  obtain ⟨hmem, hlt⟩ := List.mem_filter.1 h
  exact ⟨hmem, (of_decide_eq_true hlt).ne'⟩

/-- A directory in the middle is attached. -/
theorem Attaches.of_directory {node next : RouteTree} {below : List (String × FileTree)}
    (h : Attaches routeFile directory node
      ((entries.lookup name).map fun entry => (name, entry)).toList next)
    (hi : RouteFiles.isIgnored name = false)
    (hl : entries.lookup name = some (.directory below)) :
    ∃ subtree, Builds routeFile (directory.child name) (.directory below) subtree ∧
      next = (attach name subtree node).value := by
  rw [hl] at h
  obtain ⟨subtree, hs, h⟩ := (attaches_cons_of_taken (isTaken_iff.2 ⟨⟨below, rfl⟩, hi⟩)).1 h
  exact ⟨subtree, hs, attaches_nil.1 h⟩

/-- Anything else in the middle is passed over. -/
theorem Attaches.of_no_directory {node next : RouteTree}
    (h : Attaches routeFile directory node
      ((entries.lookup name).map fun entry => (name, entry)).toList next)
    (hl : ∀ below, entries.lookup name ≠ some (.directory below)) : next = node := by
  cases he : entries.lookup name with
  | none =>
      rw [he] at h
      exact attaches_nil.1 h
  | some entry =>
      have ht : isTaken name entry = false := by
        cases entry with
        | file content => rfl
        | directory below => exact absurd he (hl below)
      rw [he] at h
      exact attaches_nil.1 ((attaches_cons_of_not_taken ht).1 h)

/-- Under a name that does not show up, a missing directory is as good as an empty one. -/
theorem Attaches.of_under_directory {node next : RouteTree} {below : List (String × FileTree)}
    (h : Attaches routeFile directory node
      ((entries.lookup name).map fun entry => (name, entry)).toList next)
    (hi : RouteFiles.isIgnored name = false) (ht : Segment.isTransparentName name = true)
    (hn : node.Ordered) (hu : FileTree.under name entries = .directory below) :
    ∃ subtree, Builds routeFile (directory.child name) (.directory below) subtree ∧
      next = (attach name subtree node).value := by
  rw [FileTree.under] at hu
  cases hl : entries.lookup name with
  | some entry =>
      rw [hl] at hu
      exact h.of_directory hi (hl.trans (congrArg some hu))
  | none =>
      rw [hl] at hu
      cases hu
      refine ⟨bareNode (directory.child name) {}, builds_directory.2 ⟨⟨{}, []⟩, rfl,
        attaches_nil.2 rfl⟩, ?_⟩
      have hnone : ∀ below, entries.lookup name ≠ some (.directory below) := by
        intro below heq
        rw [hl] at heq
        cases heq
      rw [h.of_no_directory hnone, attach_bareNode ht hn]

/-- Whatever stands under a name that shows up becomes the child with its key. -/
theorem Attaches.eq_setChild {node next : RouteTree} {new : Option RouteTree}
    (h : Attaches routeFile directory node
      ((entries.lookup name).map fun entry => (name, entry)).toList next)
    (hi : RouteFiles.isIgnored name = false) (ht : Segment.isTransparentName name = false)
    (hn : node.Ordered) (hc : node.child? (Segment.classify name).key = none)
    (hnew : NodeAt routeFile directory (.directory entries) [name] new) :
    next = node.setChild (Segment.classify name).key new := by
  cases new with
  | none =>
      have hl : ∀ below, entries.lookup name ≠ some (.directory below) := by
        intro below
        rw [← FileTree.at?_singleton]
        exact hnew below
      rw [h.of_no_directory hl, ← hc, RouteTree.setChild_child? hn]
  | some node' =>
      obtain ⟨below, hl, hb⟩ := hnew
      rw [FileTree.at?_singleton] at hl
      obtain ⟨subtree, hs, rfl⟩ := h.of_directory hi hl
      rw [attach_eq_setChild ht hc, hs.unique hb]

/-- What stood under a name that shows up plays no part once its child is changed. -/
theorem Attaches.setChild_middle {node next : RouteTree}
    (h : Attaches routeFile directory node
      ((entries.lookup name).map fun entry => (name, entry)).toList next)
    (hi : RouteFiles.isIgnored name = false) (ht : Segment.isTransparentName name = false)
    (hn : node.Ordered) (hc : node.child? (Segment.classify name).key = none)
    (new : Option RouteTree) :
    next.setChild (Segment.classify name).key new =
      node.setChild (Segment.classify name).key new := by
  by_cases hl : ∃ below, entries.lookup name = some (.directory below)
  · obtain ⟨below, hl⟩ := hl
    obtain ⟨subtree, -, rfl⟩ := h.of_directory hi hl
    rw [attach_eq_setChild ht hc, RouteTree.setChild_setChild hn]
  · rw [h.of_no_directory (not_exists.1 hl)]

/-! ### Changes at a place -/

theorem NoRouteFileAt.analyzeFile_eq (h : NoRouteFileAt routeFile (.directory entries) [routeFile]) :
    analyzeFile directory routeFile (entries.lookup routeFile) = .ok ⟨{}, []⟩ := by
  cases hl : entries.lookup routeFile with
  | none => rfl
  | some entry =>
      cases entry with
      | file content => exact absurd ((FileTree.at?_singleton _ _).trans hl) (h rfl content)
      | directory below => rfl

theorem analyzeFile_under (entries : List (String × FileTree)) :
    analyzeFile directory routeFile (entries.lookup routeFile) =
      analyzeFile directory routeFile (some (FileTree.under routeFile entries)) := by
  rw [FileTree.under]
  cases entries.lookup routeFile <;> rfl

/-- The route file of a directory is not affected by what changes at a place below it. -/
theorem analyzeFile_of_agreeOutside {entries entries' : List (String × FileTree)}
    (h : FileTree.AgreeOutside (name :: rest) (.directory entries) (.directory entries'))
    (hs : NoRouteFileAt routeFile (.directory entries) (name :: rest))
    (ht : NoRouteFileAt routeFile (.directory entries') (name :: rest)) :
    analyzeFile directory routeFile (entries.lookup routeFile) =
      analyzeFile directory routeFile (entries'.lookup routeFile) := by
  obtain ⟨hremove, hunder⟩ := h
  by_cases hname : routeFile = name
  · subst hname
    cases rest with
    | nil => rw [hs.analyzeFile_eq, ht.analyzeFile_eq]
    | cons next rest =>
        rw [analyzeFile_under, analyzeFile_under]
        rcases hunder.directory_or_eq with ⟨below, below', hl, hl'⟩ | ⟨heq, -⟩
        · rw [hl, hl']
          rfl
        · rw [heq]
  · rw [← Keyed.lookup_remove_of_ne hname, hremove, Keyed.lookup_remove_of_ne hname]

/-- The change that a replacement makes to one child stays the same while more is attached that does
not bring this child. -/
theorem Attaches.replaceWithin {path keys : List String} {key : String} {new : Option RouteTree}
    {next next' old fresh : RouteTree} (h : Attaches routeFile directory next entries old)
    (h' : Attaches routeFile directory next' entries fresh) (hn : next.Ordered)
    (hk : Spares routeFile directory entries key)
    (hr : next.replaceWithin path new (key :: keys) = .ok next') :
    old.replaceWithin path new (key :: keys) = .ok fresh := by
  obtain ⟨child?, rfl, hchild⟩ := RouteTree.replaceWithin_cons_eq_ok.1 hr
  refine RouteTree.replaceWithin_cons_eq_ok.2
    ⟨child?, h'.unique (h.setChild hn hk child?), hchild.imp_right ?_⟩
  rintro ⟨hne, child, child', hc, hw, rfl⟩
  exact ⟨hne, child, child', h.child?_of_some hc, hw, rfl⟩

omit [Recovery] in
/-- The same for a change inside a directory that is folded into the node. -/
theorem replaceWithin_attach_of_transparent {path keys : List String} {key : String}
    {new : Option RouteTree} {node subtree subtree' : RouteTree}
    (ht : Segment.isTransparentName name = true) (hs : subtree.Ordered) (hn : node.Ordered)
    (hc : node.child? key = none)
    (hr : subtree.replaceWithin path new (key :: keys) = .ok subtree') :
    (attach name subtree node).value.replaceWithin path new (key :: keys) =
      .ok (attach name subtree' node).value := by
  obtain ⟨child?, rfl, hchild⟩ := RouteTree.replaceWithin_cons_eq_ok.1 hr
  refine RouteTree.replaceWithin_cons_eq_ok.2
    ⟨child?, attach_setChild_of_transparent ht hs hn hc child?, hchild.imp_right ?_⟩
  rintro ⟨hne, child, child', hpresent, hw, rfl⟩
  refine ⟨hne, child, child', ?_, hw, rfl⟩
  rw [child?_attach name hs, hc, Option.none_or, brought, if_pos ht, hpresent]

omit [Recovery] in
theorem at?_ne_directory {front : List String}
    (hl : ∀ below, entries.lookup name ≠ some (.directory below))
    (below : List (String × FileTree)) :
    FileTree.at? (name :: front) (.directory entries) ≠ some (.directory below) := by
  intro hbelow
  rw [FileTree.at?_directory_cons] at hbelow
  obtain ⟨entry, hentry, hbelow⟩ := Option.bind_eq_some_iff.1 hbelow
  cases entry with
  | directory below' => exact hl below' hentry
  | file content =>
      cases front with
      | nil => cases hbelow
      | cons other front => cases hbelow

/-- A change at a place is a change of what the entry under its first name makes of the node that is
there before. -/
theorem replaceWithin_of_middle {path keys : List String} {key : String} {new : Option RouteTree}
    {entries entries' : List (String × FileTree)} {old fresh : RouteTree} (hne : "" ∉ name :: rest)
    (hends : Segment.EndsShown (name :: rest))
    (hkeys : Segment.keys (name :: rest) = key :: keys)
    (hagree : FileTree.AgreeOutside (name :: rest) (.directory entries) (.directory entries'))
    (hs : Isolates routeFile (.directory entries) (name :: rest))
    (ht : Isolates routeFile (.directory entries') (name :: rest))
    (hold : Builds routeFile directory (.directory entries) old)
    (hfresh : Builds routeFile directory (.directory entries') fresh)
    (hstep : ∀ middle next next' : RouteTree, middle.Ordered → middle.child? key = none →
      Attaches routeFile directory middle
        ((entries.lookup name).map fun entry => (name, entry)).toList next →
      Attaches routeFile directory middle
        ((entries'.lookup name).map fun entry => (name, entry)).toList next' →
      next.replaceWithin path new (key :: keys) = .ok next') :
    old.replaceWithin path new (key :: keys) = .ok fresh := by
  have hsorted := (FileTree.wellFormed_directory.1 hs.wellFormed).1
  have hsorted' := (FileTree.wellFormed_directory.1 ht.wellFormed).1
  have hspares : ∀ part, (∀ e ∈ part, e ∈ entries ∧ e.1 ≠ name) →
      Spares routeFile directory part key := fun part =>
    spares_of_unshadowed hs.wellFormed hne hends hkeys hs.unshadowed
  obtain ⟨analysis, ha, hold⟩ := builds_directory.1 hold
  obtain ⟨analysis', ha', hfresh⟩ := builds_directory.1 hfresh
  rw [analyzeFile_of_agreeOutside hagree hs.noRouteFile ht.noRouteFile, ha'] at ha
  cases ha
  obtain ⟨middle, next, hmiddle, hnext, hold⟩ := hold.around hsorted name
  obtain ⟨middle', next', hmiddle', hnext', hfresh⟩ := hfresh.around hsorted' name
  -- In front of the name and behind it, both trees have the same entries.
  rw [← Keyed.before_remove, ← hagree.1, Keyed.before_remove] at hmiddle'
  rw [← Keyed.behind_remove, ← hagree.1, Keyed.behind_remove] at hfresh
  obtain rfl := hmiddle.unique hmiddle'
  have hordered : middle.Ordered := hmiddle.ordered (ordered_bareNode directory _)
  have hfree : middle.child? key = none := by
    rw [hmiddle.child?_of_spares (hspares _ fun e => mem_before), child?_bareNode]
  have hnextordered : next.Ordered := hnext.ordered hordered
  exact hold.replaceWithin hfresh hnextordered (hspares _ fun e => mem_behind)
    (hstep middle next next' hordered hfree hnext hnext')

section

variable {path : List String} {new : Option RouteTree} {entries entries' : List (String × FileTree)}
  {old fresh : RouteTree}

/-- Where the place is reached, its node is the child itself. -/
theorem replaceWithin_of_singleton (hname : name ≠ "") (hends : Segment.EndsShown [name])
    (hi : RouteFiles.isIgnored name = false)
    (hagree : FileTree.AgreeOutside [name] (.directory entries) (.directory entries'))
    (hs : Isolates routeFile (.directory entries) [name])
    (ht : Isolates routeFile (.directory entries') [name])
    (hold : Builds routeFile directory (.directory entries) old)
    (hfresh : Builds routeFile directory (.directory entries') fresh)
    (hnew : NodeAt routeFile directory (.directory entries') [name] new) :
    old.replaceWithin path new (Segment.keys [name]) = .ok fresh := by
  have hne : "" ∉ [name] := by
    rw [List.mem_singleton]
    exact hname.symm
  have htr := Segment.endsShown_singleton.1 hends
  have hkeys := Segment.keys_cons_of_shown hname htr []
  rw [hkeys, Segment.keys_nil]
  refine replaceWithin_of_middle hne hends hkeys hagree hs ht hold hfresh ?_
  intro middle next next' hm hc hnext hnext'
  rw [RouteTree.replaceWithin_singleton, hnext.setChild_middle hi htr hm hc,
    hnext'.eq_setChild hi htr hm hc hnew]

variable {below below' : List (String × FileTree)}

/-- A directory that does not show up is folded into the node, and the keys are those of the rest. -/
theorem replaceWithin_of_folded (hne : "" ∉ name :: rest) (hends : Segment.EndsShown (name :: rest))
    (hr : rest ≠ []) (hi : RouteFiles.isIgnored name = false)
    (htr : Segment.isTransparentName name = true)
    (hagree : FileTree.AgreeOutside (name :: rest) (.directory entries) (.directory entries'))
    (hs : Isolates routeFile (.directory entries) (name :: rest))
    (ht : Isolates routeFile (.directory entries') (name :: rest))
    (hold : Builds routeFile directory (.directory entries) old)
    (hfresh : Builds routeFile directory (.directory entries') fresh)
    (hu : FileTree.under name entries = .directory below)
    (hu' : FileTree.under name entries' = .directory below')
    (hsub : ∀ {a b : RouteTree}, Builds routeFile (directory.child name) (.directory below) a →
      Builds routeFile (directory.child name) (.directory below') b →
      a.replaceWithin path new (Segment.keys rest) = .ok b) :
    old.replaceWithin path new (Segment.keys (name :: rest)) = .ok fresh := by
  have hname : name ≠ "" := fun h => hne (h ▸ List.mem_cons_self)
  have hsame := Segment.keys_cons_of_transparent hname htr rest
  obtain ⟨first, last, key, -, -, -, hkeys⟩ := Segment.exists_first_shown
    (fun h => hne (List.mem_cons_of_mem _ h)) ((Segment.endsShown_cons hr).1 hends)
  rw [hkeys] at hsub
  rw [hsame, hkeys]
  refine replaceWithin_of_middle hne hends (hsame.trans hkeys) hagree hs ht hold hfresh ?_
  intro middle next next' hm hc hnext hnext'
  obtain ⟨subtree, hb, rfl⟩ := hnext.of_under_directory hi htr hm hu
  obtain ⟨subtree', hb', rfl⟩ := hnext'.of_under_directory hi htr hm hu'
  exact replaceWithin_attach_of_transparent htr hb.ordered hm hc (hsub hb hb')

/-- A directory that shows up is a child, and the rest of the keys leads on from there. -/
theorem replaceWithin_of_child (hne : "" ∉ name :: rest) (hends : Segment.EndsShown (name :: rest))
    (hr : rest ≠ []) (hi : RouteFiles.isIgnored name = false)
    (htr : Segment.isTransparentName name = false)
    (hagree : FileTree.AgreeOutside (name :: rest) (.directory entries) (.directory entries'))
    (hs : Isolates routeFile (.directory entries) (name :: rest))
    (ht : Isolates routeFile (.directory entries') (name :: rest))
    (hold : Builds routeFile directory (.directory entries) old)
    (hfresh : Builds routeFile directory (.directory entries') fresh)
    (hl : entries.lookup name = some (.directory below))
    (hl' : entries'.lookup name = some (.directory below'))
    (hsub : ∀ {a b : RouteTree}, Builds routeFile (directory.child name) (.directory below) a →
      Builds routeFile (directory.child name) (.directory below') b →
      a.replaceWithin path new (Segment.keys rest) = .ok b) :
    old.replaceWithin path new (Segment.keys (name :: rest)) = .ok fresh := by
  have hname : name ≠ "" := fun h => hne (h ▸ List.mem_cons_self)
  have hrest : Segment.keys rest ≠ [] := Segment.keys_ne_nil
    (fun h => hne (List.mem_cons_of_mem _ h)) ((Segment.endsShown_cons hr).1 hends)
  have hkeys := Segment.keys_cons_of_shown hname htr rest
  rw [hkeys]
  refine replaceWithin_of_middle hne hends hkeys hagree hs ht hold hfresh ?_
  intro middle next next' hm hc hnext hnext'
  obtain ⟨subtree, hb, rfl⟩ := hnext.of_directory hi hl
  obtain ⟨subtree', hb', rfl⟩ := hnext'.of_directory hi hl'
  rw [attach_eq_setChild htr hc, attach_eq_setChild htr hc]
  exact RouteTree.replaceWithin_cons_eq_ok.2 ⟨some subtree',
    (RouteTree.setChild_setChild hm _ _ _).symm,
    Or.inr ⟨hrest, subtree, subtree', RouteTree.child?_setChild_self _ _ _, hsub hb hb', rfl⟩⟩

/-- A file under the first name is the same in both trees, and nothing is below it. -/
theorem replaceWithin_of_file {content : ByteArray} (hne : "" ∉ name :: rest)
    (hends : Segment.EndsShown (name :: rest))
    (hagree : FileTree.AgreeOutside (name :: rest) (.directory entries) (.directory entries'))
    (hs : Isolates routeFile (.directory entries) (name :: rest))
    (ht : Isolates routeFile (.directory entries') (name :: rest))
    (hold : Builds routeFile directory (.directory entries) old)
    (hfresh : Builds routeFile directory (.directory entries') fresh)
    (hnew : NodeAt routeFile directory (.directory entries') (name :: rest) new)
    (hl : entries.lookup name = some (.file content))
    (hl' : entries'.lookup name = some (.file content)) :
    old.replaceWithin path new (Segment.keys (name :: rest)) = .ok fresh := by
  obtain rfl := FileTree.entries_eq_of_remove hs.wellFormed ht.wellFormed hagree.1 (hl.trans hl'.symm)
  obtain rfl := hold.unique hfresh
  refine replaceWithin_of_absent hne hends ht hfresh hnew ?_
  intro front back hplace hfront below hbelow
  obtain ⟨first, front, rfl⟩ := List.exists_cons_of_ne_nil hfront
  obtain ⟨rfl, -⟩ := List.cons.inj hplace
  refine at?_ne_directory ?_ below hbelow
  intro other hother
  rw [hl] at hother
  cases hother

end

/-- When two trees agree outside a place, a replacement at its keys turns the node of one tree into
the node of the other. -/
theorem replaceWithin_of_agreeOutside {path place : List String} {new : Option RouteTree}
    {s t : FileTree} {old fresh : RouteTree} (hne : "" ∉ place)
    (hends : Segment.EndsShown place) (hi : ∀ name ∈ place, RouteFiles.isIgnored name = false)
    (hagree : FileTree.AgreeOutside place s t) (hs : Isolates routeFile s place)
    (ht : Isolates routeFile t place) (hold : Builds routeFile directory s old)
    (hfresh : Builds routeFile directory t fresh) (hnew : NodeAt routeFile directory t place new) :
    old.replaceWithin path new (Segment.keys place) = .ok fresh := by
  induction place generalizing directory s t old fresh with
  | nil => exact absurd rfl hends.ne_nil
  | cons name rest ih =>
      have hname : name ≠ "" := fun h => hne (h ▸ List.mem_cons_self)
      have hiname : RouteFiles.isIgnored name = false := hi name List.mem_cons_self
      rcases hagree.directory_or_eq with ⟨entries, entries', rfl, rfl⟩ | ⟨rfl, content, rfl⟩
      · by_cases hr : rest = []
        · subst hr
          exact replaceWithin_of_singleton hname hends hiname hagree hs ht hold hfresh hnew
        · have hsub : ∀ {a b : RouteTree},
              Builds routeFile (directory.child name) (FileTree.under name entries) a →
              Builds routeFile (directory.child name) (FileTree.under name entries') b →
              a.replaceWithin path new (Segment.keys rest) = .ok b := fun ha hb =>
            ih (fun h => hne (List.mem_cons_of_mem _ h)) ((Segment.endsShown_cons hr).1 hends)
              (fun other ho => hi other (List.mem_cons_of_mem _ ho)) hagree.2
              (hs.tail hname hiname hr) (ht.tail hname hiname hr) ha hb (hnew.tail hr)
          obtain ⟨next, back, rfl⟩ := List.exists_cons_of_ne_nil hr
          rcases hagree.2.directory_or_eq with ⟨below, below', hu, hu'⟩ | ⟨heq, content, hu⟩
          · rw [hu, hu'] at hsub
            cases htr : Segment.isTransparentName name with
            | true =>
                exact replaceWithin_of_folded hne hends hr hiname htr hagree hs ht hold hfresh hu hu'
                  hsub
            | false =>
                exact replaceWithin_of_child hne hends hr hiname htr hagree hs ht hold hfresh
                  (hs.lookup_eq htr hu) (ht.lookup_eq htr hu') hsub
          · exact replaceWithin_of_file hne hends hagree hs ht hold hfresh hnew (lookup_eq_file hu)
              (lookup_eq_file (heq ▸ hu))
      · obtain rfl := hold.unique hfresh
        refine replaceWithin_of_absent hne hends ht hfresh hnew ?_
        -- A file has no children in either tree.
        intro front back hplace hfront below hbelow
        rw [FileTree.at?_file content hfront] at hbelow
        cases hbelow

end Build

end RouteBinder.Project
