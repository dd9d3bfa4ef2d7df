import RouteBinder.Proofs.Project.Batches
import RouteBinder.Proofs.Project.Moves

/-!
# RouteBinder.Proofs.Project.MovedRoute

**The batch of a move.** A `Move` is reported as a batch in which the old route files are deleted and the
new ones are added. Both kinds of change concern one node: a deletion in the old directory takes it away,
an addition in the new directory puts it there. So it matters which of them come last, and that is decided
by the texts of the paths. The live tree is that of a full build when the old path comes first
(`runOn_handleChanges_of_lt`); otherwise the routes of the moved directory are lost
(`runOn_handleChanges_of_gt`).
-/

namespace RouteBinder.Project

open FileSystem Route Analysis Body

namespace Coordinator

variable {run : Formatter.Runner} {config : Config} {refused : Generation.Refusals}
  {place place' : List String}
  {before after : FileTree}

/-! ### The order of paths -/

theorem routeText_append (config : Config) (front rest : List String) :
    routeText config (front ++ rest) = (FileSystem.Path.mk config.appDir.anchor
      (config.appDir.parts ++ front ++ (rest ++ [config.routeFile]))).render := by
  simp only [routeText, Path.descend, List.append_assoc]

/-- All changes of two directories that are apart compare like those of the directories themselves. -/
theorem routeText_lt_iff [Host] {front back rest rest' : List String}
    (hresolved : config.appDir.resolve = config.appDir) (hfront : front ≠ []) (hback : back ≠ [])
    (hf : ∀ name ∈ config.appDir.parts ++ front, FileTree.isEntryName name = true)
    (hb : ∀ name ∈ config.appDir.parts ++ back, FileTree.isEntryName name = true)
    (hapart : Apart (config.appDir.parts ++ front) (config.appDir.parts ++ back)) :
    routeText config (front ++ rest) < routeText config (back ++ rest') ↔
      routeText config front < routeText config back := by
  have habs : (FileSystem.Path.mk config.appDir.anchor (config.appDir.parts ++ front)).isAbsolute = true := by
    change config.appDir.isAbsolute = true
    rw [← hresolved]
    exact Path.isAbsolute_resolve _
  have hself : ∀ names, routeText config names = routeText config (names ++ []) := fun names => by
    rw [List.append_nil]
  rw [hself front, hself back, routeText_append, routeText_append, routeText_append,
    routeText_append]
  exact Path.render_lt_iff habs (List.append_ne_nil_of_right_ne_nil _ hfront)
    (List.append_ne_nil_of_right_ne_nil _ hback) hf hb hapart (by simp) (by simp) (by simp) (by simp)

/-! ### Changes of the old and the new route files -/

/-- There is a route file in the directory to which the names lead from a place. -/
def HoldsRoute (config : Config) (files : FileTree) (place rest : List String) : Prop :=
  (∀ name ∈ rest, RouteFiles.isIgnored name = false) ∧
    ∃ content, files.at? (config.appDir.parts ++ (place ++ rest ++ [config.routeFile])) =
      some (.file content)

/-- A change that the move of a directory brings about: a route file in the old place is deleted, or one
in the new place is added. -/
def Brings (config : Config) (place place' : List String) (before : FileTree)
    (change : Change × String) : Prop :=
  ∃ rest, HoldsRoute config before place rest ∧
    (change = (.deleted, routeText config (place ++ rest)) ∨
      change = (.added, routeText config (place' ++ rest)))

def isDeletion : Change × String → Bool
  | (.deleted, _) => true
  | _ => false

theorem Brings.of_deletion {change : Change × String} (h : Brings config place place' before change)
    (hd : isDeletion change = true) : ∃ rest, HoldsRoute config before place rest ∧
      change = (.deleted, routeText config (place ++ rest)) := by
  obtain ⟨rest, hr, rfl | rfl⟩ := h
  · exact ⟨rest, hr, rfl⟩
  · cases hd

theorem Brings.of_addition {change : Change × String} (h : Brings config place place' before change)
    (hd : isDeletion change = false) : ∃ rest, HoldsRoute config before place rest ∧
      change = (.added, routeText config (place' ++ rest)) := by
  obtain ⟨rest, hr, rfl | rfl⟩ := h
  · cases hd
  · exact ⟨rest, hr, rfl⟩

namespace Move

variable {rest : List String} {routes : List (String × FileTree)} {base node node' fresh : RouteTree}

theorem hasRouteText [Host] (h : Move config place place' before after)
    (hr : HoldsRoute config before place rest) : HasRouteText config (place ++ rest) := by
  obtain ⟨-, content, hat⟩ := hr
  exact FileTree.isEntryName_of_at? h.wellFormed hat

/-- The new place holds the route files of the old one. -/
theorem holdsRoute_after [Host] (h : Move config place place' before after)
    (hr : HoldsRoute config before place rest) : HoldsRoute config after place' rest := by
  obtain ⟨hi, content, hat⟩ := hr
  refine ⟨hi, content, ?_⟩
  rw [List.append_assoc] at hat ⊢
  rw [h.after_at?_place', hat]

theorem hasRouteText' [Host] (h : Move config place place' before after)
    (hr : HoldsRoute config before place rest) : HasRouteText config (place' ++ rest) := by
  obtain ⟨-, content, hat⟩ := h.holdsRoute_after hr
  exact FileTree.isEntryName_of_at? h.wellFormed_after hat

theorem notIgnored_append {front : List String}
    (hfront : ∀ name ∈ front, RouteFiles.isIgnored name = false)
    (hrest : ∀ name ∈ rest, RouteFiles.isIgnored name = false) :
    ∀ name ∈ front ++ rest, RouteFiles.isIgnored name = false := by
  intro name hn
  rcases List.mem_append.1 hn with hn | hn
  · exact hfront name hn
  · exact hrest name hn

theorem concerns_deleted [Recovery] [Host] (h : Move config place place' before after)
    (hroutes : after.at? config.appDir.parts = some (.directory routes))
    (hr : HoldsRoute config before place rest) :
    Concerns config routes .deleted place rest none where
  resolved := h.resolved
  text := h.hasRouteText hr
  notIgnored := notIgnored_append h.notIgnored hr.1
  endsShown := h.endsShown
  node := by
    intro entries hat
    rw [← routesIn_eq hroutes, ← at?_routesIn after (List.append_ne_nil_of_left_ne_nil
      h.endsShown.ne_nil _), ← List.append_assoc, FileTree.at?_append, h.after_at?_place] at hat
    cases hat
  deleted := fun _ => rfl

/-- The target of an addition is a directory. -/
theorem exists_directory_target [Host] (h : Move config place place' before after)
    (hr : HoldsRoute config before place rest) : ∃ entries,
      after.at? (config.appDir.parts ++ (place' ++ retained rest)) = some (.directory entries) := by
  obtain ⟨-, content, hat⟩ := h.holdsRoute_after hr
  rw [← List.append_assoc] at hat
  obtain ⟨entries, hdir⟩ := FileTree.exists_directory_of_append (List.cons_ne_nil _ _) hat
  refine FileTree.at?_of_prefix hdir ?_
  rw [retained_eq]
  exact (List.prefix_append_right_inj _).2
    ((List.prefix_append_right_inj _).2 (List.rdropWhile_prefix _ rest))

theorem exists_concerns_added [Recovery] [Host] (h : Move config place place' before after)
    (hroutes : after.at? config.appDir.parts = some (.directory routes))
    (hfresh : FullBuild config after fresh) (hr : HoldsRoute config before place rest) :
    ∃ new, Concerns config routes .added place' rest (some new) := by
  have hi := notIgnored_append h.notIgnored' hr.1
  have htarget := isTarget_retained (h.hasRouteText' hr) hi h.endsShown'
  obtain ⟨entries, hat⟩ := h.exists_directory_target hr
  obtain ⟨new, hnew⟩ := exists_nodeAt_of_directory htarget
    (List.append_ne_nil_of_left_ne_nil h.endsShown'.ne_nil _) h.wellFormed_after
    ((fullBuild_iff h.resolved).1 hfresh).analyzable hat
  rw [NodeAt, routesIn_eq hroutes] at hnew
  exact ⟨new, h.resolved, h.hasRouteText' hr, hi, h.endsShown', hnew, fun heq => by cases heq⟩

/-! ### What the changes make of the node -/

/-- A deletion takes the node away, or leaves it to the others. -/
theorem takes_deleted [Recovery] [Host] (h : Move config place place' before after)
    (hrun : Formatter.WritesText run) (houtside : config.WritesOutside)
    (hroutes : after.at? config.appDir.parts = some (.directory routes)) (hbase : base.AllOrdered)
    (hr : HoldsRoute config before place rest) (first : Option RouteTree) :
    ∃ second, Takes run config refused routes base (Segment.keys place)
        (.deleted, routeText config (place ++ rest)) first second ∧
      (first = none → second = none) := by
  have hconcerns := h.concerns_deleted hroutes hr
  by_cases hrest : retained rest = []
  · exact ⟨none, hconcerns.takes hrun houtside hbase hrest first, fun _ => rfl⟩
  · obtain ⟨second, htakes, hsecond⟩ := hconcerns.exists_takes hrun houtside hrest first
    refine ⟨second, htakes, fun hfirst => ?_⟩
    rcases hsecond with rfl | ⟨other, other', hother, -, -⟩
    · exact hfirst
    · rw [hfirst] at hother
      cases hother

/-- Inside the node of a full build, additions find everything in its place. -/
theorem replaceWithin_self [Recovery] [Host] (h : Move config place place' before after)
    (hroutes : after.at? config.appDir.parts = some (.directory routes))
    (hfresh : FullBuild config after fresh)
    (hlive : base.replaceAt (Segment.keys place') (some node') = .ok fresh) {new : RouteTree}
    (hr : HoldsRoute config before place rest)
    (hconcerns : Concerns config routes .added place' rest (some new)) (hrest : retained rest ≠ []) :
    node'.replaceWithin (Segment.keys place' ++ Segment.keys (retained rest)) (some new)
      (Segment.keys (retained rest)) = .ok node' := by
  have htarget := hconcerns.isTarget
  have hne : place' ++ retained rest ≠ [] :=
    List.append_ne_nil_of_left_ne_nil h.endsShown'.ne_nil _
  obtain ⟨entries, hat⟩ := h.exists_directory_target hr
  have hisolates := isolates_of_directory h.resolved htarget hne h.wellFormed_after hat
    h.distinct_after
  have hnode : NodeAt config after (place' ++ retained rest) (some new) := by
    rw [NodeAt, routesIn_eq hroutes]
    exact hconcerns.node
  -- The full build is not changed by putting in what it has already.
  have hsame := FullBuild.replaceAt h.resolved htarget hne hfresh hfresh
    (FileTree.AgreeOutside.refl _ after) hisolates hisolates hnode
  rw [RouteTree.replaceAt, Segment.keys_append] at hsame
  have hkeys : Segment.keys (retained rest) ≠ [] :=
    Segment.keys_ne_nil (fun hn => htarget.noEmpty (List.mem_append_right _ hn))
      (endsShown_retained hrest)
  obtain ⟨other, other', hother, hreplace, hlive'⟩ :=
    RouteTree.replaceWithin_below hconcerns.keys_ne_nil hkeys hlive hsame
  cases hother
  have hnode' := RouteTree.nodeAt?_replaceWithin hconcerns.keys_ne_nil hlive
  have hnode'' := RouteTree.nodeAt?_replaceWithin hconcerns.keys_ne_nil hlive'
  obtain rfl := Option.some.inj (hnode'.symm.trans hnode'')
  exact hreplace

/-- An addition leaves the node of a full build as it is. -/
theorem takes_added [Recovery] [Host] (h : Move config place place' before after)
    (hrun : Formatter.WritesText run) (houtside : config.WritesOutside)
    (hroutes : after.at? config.appDir.parts = some (.directory routes)) (hbase : base.AllOrdered)
    (hfresh : FullBuild config after fresh)
    (hlive : base.replaceAt (Segment.keys place') (some node') = .ok fresh)
    (hnode' : NodeAt config after place' (some node'))
    (hr : HoldsRoute config before place rest) (first : Option RouteTree) :
    ∃ second, Takes run config refused routes base (Segment.keys place')
        (.added, routeText config (place' ++ rest)) first second ∧
      (first = some node' ∨ retained rest = [] → second = some node') := by
  obtain ⟨new, hconcerns⟩ := h.exists_concerns_added hroutes hfresh hr
  by_cases hrest : retained rest = []
  -- The route file belongs to the moved directory itself, which is built as a whole.
  · have hnew := hconcerns.node
    rw [hrest, List.append_nil, ← routesIn_eq hroutes] at hnew
    obtain ⟨entries, hat, hb⟩ := hnew
    obtain ⟨entries', hat', hb'⟩ := hnode'
    cases hat.symm.trans hat'
    obtain rfl := hb.unique hb'
    exact ⟨_, hconcerns.takes hrun houtside hbase hrest first, fun _ => rfl⟩
  -- The route file belongs to a directory further down.
  · obtain ⟨second, htakes, hsecond⟩ := hconcerns.exists_takes hrun houtside hrest first
    refine ⟨second, htakes, fun hfirst => ?_⟩
    obtain rfl := hfirst.resolve_right hrest
    rcases hsecond with rfl | ⟨other, other', hother, rfl, hreplace⟩
    · rfl
    · cases hother
      rw [h.replaceWithin_self hroutes hfresh hlive hr hconcerns hrest] at hreplace
      cases hreplace
      rfl

/-! ### The order of the changes -/

theorem text_lt_iff [Host] (h : Move config place place' before after) (rest rest' : List String) :
    routeText config (place ++ rest) < routeText config (place' ++ rest') ↔
      routeText config place < routeText config place' :=
  routeText_lt_iff h.resolved h.endsShown.ne_nil h.endsShown'.ne_nil h.entryNames_place
    h.entryNames_place' h.apart_full

theorem text_lt_iff' [Host] (h : Move config place place' before after) (rest rest' : List String) :
    routeText config (place' ++ rest') < routeText config (place ++ rest) ↔
      routeText config place' < routeText config place :=
  routeText_lt_iff h.resolved h.endsShown'.ne_nil h.endsShown.ne_nil h.entryNames_place'
    h.entryNames_place h.apart_full.symm

theorem text_ne [Recovery] [Host] (h : Move config place place' before after)
    (hr : HoldsRoute config before place []) :
    routeText config place ≠ routeText config place' := by
  intro heq
  have htext := h.hasRouteText hr
  have htext' := h.hasRouteText' hr
  rw [List.append_nil] at htext htext'
  have hpaths := congrArg Path.parts
    ((ofString_routeText h.resolved htext).symm.trans (heq ▸ ofString_routeText h.resolved htext'))
  have hnames := List.append_cancel_left hpaths
  exact h.place_ne_place' (List.append_cancel_right hnames)

/-! ### The batch -/

section Batch

variable [Host] [Recovery] {changes : List (Change × String)} (h : Move config place place' before after)
  (hrun : Formatter.WritesText run) (houtside : config.WritesOutside)
  (hroutes : after.at? config.appDir.parts = some (.directory routes)) (hbase : base.AllOrdered)
  (hfresh : FullBuild config after fresh)
  (hlive : base.replaceAt (Segment.keys place') (some node') = .ok fresh)
  (hnode' : NodeAt config after place' (some node')) (hroute : HoldsRoute config before place [])
  (hchanges : ∀ change, change ∈ changes ↔ Brings config place place' before change)

include h hrun houtside hroutes hbase hfresh hlive hnode' hroute hchanges

/-- With the deletions first, the additions have the last word. -/
theorem takesAll_of_lt (hlt : routeText config place < routeText config place')
    (first : Option RouteTree) :
    TakesAll run config refused routes base (Segment.keys place') (changes.mergeSort inOrder) first
      (some node') := by
  rw [mergeSort_eq_append isDeletion changes]
  -- Whatever the deletions leave, the additions put the new node there.
  · have hdeletions : ∀ change ∈ (changes.mergeSort inOrder).filter isDeletion, ∀ first,
        ∃ second, Takes run config refused routes base (Segment.keys place') change first second := by
      intro change hc first
      obtain ⟨hmem, hd⟩ := List.mem_filter.1 hc
      obtain ⟨rest, hr, rfl⟩ := ((hchanges change).1 (List.mem_mergeSort.1 hmem)).of_deletion hd
      obtain ⟨second, htakes, -⟩ := h.takes_deleted hrun houtside hroutes hbase hr first
      exact ⟨second, h.sameKeys ▸ htakes⟩
    obtain ⟨second, hsecond⟩ := TakesAll.exists hdeletions first
    refine hsecond.append (TakesAll.settled (fun change hc first => ?_) (Or.inr ?_))
    · obtain ⟨hmem, hd⟩ := List.mem_filter.1 hc
      obtain ⟨rest, hr, rfl⟩ := ((hchanges change).1 (List.mem_mergeSort.1 hmem)).of_addition
        (Bool.not_eq_true' _ ▸ hd)
      obtain ⟨third, htakes, hthird⟩ :=
        h.takes_added hrun houtside hroutes hbase hfresh hlive hnode' hr first
      exact ⟨third, htakes, fun hfirst => hthird (Or.inl hfirst)⟩
    · refine ⟨(.added, routeText config (place' ++ [])), List.mem_filter.2 ⟨?_, rfl⟩, fun node => ?_⟩
      · exact List.mem_mergeSort.2 ((hchanges _).2 ⟨[], hroute, Or.inr rfl⟩)
      · obtain ⟨third, htakes, hthird⟩ :=
          h.takes_added hrun houtside hroutes hbase hfresh hlive hnode' hroute node
        exact hthird (Or.inr rfl) ▸ htakes
  · intro a ha b hb hda hdb
    obtain ⟨rest, -, rfl⟩ := ((hchanges a).1 ha).of_deletion hda
    obtain ⟨rest', -, rfl⟩ := ((hchanges b).1 hb).of_addition hdb
    exact (h.text_lt_iff rest rest').2 hlt

/-- With the additions first, the deletions have the last word. -/
theorem takesAll_of_gt (hgt : routeText config place' < routeText config place)
    (first : Option RouteTree) :
    TakesAll run config refused routes base (Segment.keys place') (changes.mergeSort inOrder) first none := by
  rw [mergeSort_eq_append (!isDeletion ·) changes]
  · have hadditions : ∀ change ∈ (changes.mergeSort inOrder).filter (!isDeletion ·), ∀ first,
        ∃ second, Takes run config refused routes base (Segment.keys place') change first second := by
      intro change hc first
      obtain ⟨hmem, hd⟩ := List.mem_filter.1 hc
      obtain ⟨rest, hr, rfl⟩ := ((hchanges change).1 (List.mem_mergeSort.1 hmem)).of_addition
        (Bool.not_eq_true' _ ▸ hd)
      obtain ⟨second, htakes, -⟩ :=
        h.takes_added hrun houtside hroutes hbase hfresh hlive hnode' hr first
      exact ⟨second, htakes⟩
    obtain ⟨second, hsecond⟩ := TakesAll.exists hadditions first
    refine hsecond.append (TakesAll.settled (fun change hc first => ?_) (Or.inr ?_))
    · obtain ⟨hmem, hd⟩ := List.mem_filter.1 hc
      obtain ⟨rest, hr, rfl⟩ := ((hchanges change).1 (List.mem_mergeSort.1 hmem)).of_deletion
        (by simpa using hd)
      obtain ⟨third, htakes, hthird⟩ := h.takes_deleted hrun houtside hroutes hbase hr first
      exact ⟨third, h.sameKeys ▸ htakes, hthird⟩
    · refine ⟨(.deleted, routeText config (place ++ [])), List.mem_filter.2 ⟨?_, rfl⟩, fun node => ?_⟩
      · exact List.mem_mergeSort.2 ((hchanges _).2 ⟨[], hroute, Or.inl rfl⟩)
      · rw [h.sameKeys]
        exact (h.concerns_deleted hroutes hroute).takes hrun houtside hbase rfl node
  · intro a ha b hb hda hdb
    obtain ⟨rest, -, rfl⟩ := ((hchanges a).1 ha).of_addition (Bool.not_eq_true' _ ▸ hda)
    obtain ⟨rest', -, rfl⟩ := ((hchanges b).1 hb).of_deletion (Bool.not_eq_false' _ ▸ hdb)
    exact (h.text_lt_iff' rest' rest).2 hgt

end Batch

end Move

variable {changes : List (Change × String)} {old : RouteTree}

/-- When the old path comes first, the live tree is that of a full build. -/
theorem runOn_handleChanges_of_lt [Recovery] [Host] (h : Move config place place' before after)
    (hrun : Formatter.WritesText run) (houtside : config.WritesOutside)
    (hroute : HoldsRoute config before place [])
    (hchanges : ∀ change, change ∈ changes ↔ Brings config place place' before change)
    (hlt : routeText config place < routeText config place') (hold : FullBuild config before old)
    (version : Nat) (reported : List Notice) (refused : Generation.Refusals) :
    ∃ fresh version' workspace, FullBuild config after fresh ∧
      runOn (handleChanges run config changes refused) ⟨some old, version⟩ ⟨after, reported⟩ =
        ((.ok (), ⟨some fresh, version'⟩), workspace) := by
  obtain ⟨base, node, node', fresh, hbase, hfresh, hnode', hlive, hlive'⟩ := h.exists_fullBuilds hold
  obtain ⟨entries, hat⟩ := h.after_isDirectory
  obtain ⟨routes, hroutes⟩ := FileTree.at?_of_prefix hat (List.prefix_append _ _)
  rw [← h.sameKeys] at hlive hlive'
  obtain ⟨final, version', workspace, hr, -, hfinal⟩ :=
    h.takesAll_of_lt hrun houtside hroutes hbase hfresh hlive' hnode' hroute hchanges hlt (some node)
      old version ⟨after, reported⟩ hroutes hlive
  obtain rfl := Except.ok.inj (hlive'.symm.trans hfinal)
  exact ⟨fresh, version', workspace, hfresh, (congrArg (runOn · _ _) (handleChanges_eq ..)).trans hr⟩

/-- When the new path comes first, the moved directory is missing in the live tree. -/
theorem runOn_handleChanges_of_gt [Recovery] [Host] (h : Move config place place' before after)
    (hrun : Formatter.WritesText run) (houtside : config.WritesOutside)
    (hroute : HoldsRoute config before place [])
    (hchanges : ∀ change, change ∈ changes ↔ Brings config place place' before change)
    (hgt : routeText config place' < routeText config place) (hold : FullBuild config before old)
    (version : Nat) (reported : List Notice) (refused : Generation.Refusals) :
    ∃ fresh final version' workspace, FullBuild config after fresh ∧
      runOn (handleChanges run config changes refused) ⟨some old, version⟩ ⟨after, reported⟩ =
        ((.ok (), ⟨some final, version'⟩), workspace) ∧
      fresh.replaceAt (Segment.keys place) none = .ok final ∧ final ≠ fresh := by
  obtain ⟨base, node, node', fresh, hbase, hfresh, hnode', hlive, hlive'⟩ := h.exists_fullBuilds hold
  obtain ⟨entries, hat⟩ := h.after_isDirectory
  obtain ⟨routes, hroutes⟩ := FileTree.at?_of_prefix hat (List.prefix_append _ _)
  rw [← h.sameKeys] at hlive hlive' ⊢
  obtain ⟨final, version', workspace, hr, -, hfinal⟩ :=
    h.takesAll_of_gt hrun houtside hroutes hbase hfresh hlive' hnode' hroute hchanges hgt (some node)
      old version ⟨after, reported⟩ hroutes hlive
  have hkeys : Segment.keys place' ≠ [] := Segment.keys_ne_nil h.isTarget'.noEmpty h.endsShown'
  refine ⟨fresh, final, version', workspace, hfresh,
    (congrArg (runOn · _ _) (handleChanges_eq ..)).trans hr,
    (RouteTree.replaceWithin_again hkeys hbase hlive').trans hfinal, ?_⟩
  -- The full build has a node there, and the live tree has none.
  rintro rfl
  have hthere := RouteTree.nodeAt?_replaceWithin hkeys hlive'
  have hnone := RouteTree.nodeAt?_replaceWithin hkeys hfinal
  rw [hthere] at hnone
  cases hnone

/-- After the batch of a move, the live tree is that of a full build exactly when the old path comes
before the new one. Otherwise it is that tree without the moved directory. -/
theorem handleChanges_eq_fullBuild_iff [Recovery] [Host] (h : Move config place place' before after)
    (hrun : Formatter.WritesText run) (houtside : config.WritesOutside)
    (hroute : HoldsRoute config before place [])
    (hchanges : ∀ change, change ∈ changes ↔ Brings config place place' before change)
    (hold : FullBuild config before old) (version : Nat) (reported : List Notice) (refused : Generation.Refusals) :
    ∃ fresh final version' workspace, FullBuild config after fresh ∧
      runOn (handleChanges run config changes refused) ⟨some old, version⟩ ⟨after, reported⟩ =
        ((.ok (), ⟨some final, version'⟩), workspace) ∧
      (final = fresh ↔ routeText config place < routeText config place') ∧
      (final ≠ fresh → fresh.replaceAt (Segment.keys place) none = .ok final) := by
  rcases lt_or_gt_of_ne (h.text_ne hroute) with hlt | hgt
  · obtain ⟨fresh, version', workspace, hfresh, hr⟩ :=
      runOn_handleChanges_of_lt h hrun houtside hroute hchanges hlt hold version reported refused
    exact ⟨fresh, fresh, version', workspace, hfresh, hr, iff_of_true rfl hlt, absurd rfl⟩
  · obtain ⟨fresh, final, version', workspace, hfresh, hr, hmissing, hne⟩ :=
      runOn_handleChanges_of_gt h hrun houtside hroute hchanges hgt hold version reported refused
    exact ⟨fresh, final, version', workspace, hfresh, hr, iff_of_false hne hgt.asymm,
      fun _ => hmissing⟩

/-! ### Two moves -/

theorem holdsRoute_small_iff {name : String} {rest : List String} :
    HoldsRoute smallConfig (smallFiles [(name, .directory [("route.ts", smallRoute)])]) [name] rest ↔
      rest = [] := by
  constructor
  · rintro ⟨-, content, hat⟩
    rw [at?_routesIn _ (by simp), routesIn_smallFiles, List.singleton_append, List.cons_append,
      FileTree.at?_directory_cons, List.lookup_cons_self, Option.bind_some] at hat
    cases rest with
    | nil => rfl
    | cons first rest =>
        rw [List.cons_append, FileTree.at?_directory_cons, Keyed.lookup_cons] at hat
        split at hat
        · rw [Option.bind_some, smallRoute, FileTree.at?_file _ (by simp)] at hat
          cases hat
        · cases hat
  · rintro rfl
    refine ⟨nofun, ?_⟩
    rw [at?_routesIn _ (by simp), routesIn_smallFiles, List.append_nil, List.singleton_append,
      FileTree.at?_directory_cons, List.lookup_cons_self]
    exact ⟨_, rfl⟩

/-- Only one route file is moved. -/
theorem mem_iff_brings_small {name : String} {place' : List String} {change : Change × String} :
    change ∈ [(.deleted, routeText smallConfig [name]), (.added, routeText smallConfig place')] ↔
      Brings smallConfig [name] place'
        (smallFiles [(name, .directory [("route.ts", smallRoute)])]) change := by
  rw [Brings, List.mem_pair]
  constructor
  · intro hc
    refine ⟨[], holdsRoute_small_iff.2 rfl, ?_⟩
    rwa [List.append_nil, List.append_nil]
  · rintro ⟨rest, hr, hc⟩
    obtain rfl := holdsRoute_small_iff.1 hr
    rwa [List.append_nil, List.append_nil] at hc

/-- In a project with one route file, no two directories have the same keys. -/
theorem distinct_small (name : String) : Set.InjOn Segment.keys {other |
    Build.Shows (routesIn smallConfig
      (smallFiles [(name, .directory [("route.ts", smallRoute)])])) other} := by
  have hsingle : Set.InjOn Segment.keys {[name]} := Set.subsingleton_singleton.injOn _
  refine hsingle.mono fun other ho => eq_of_shows ho fun e he => ?_
  rw [List.mem_singleton.1 he]
  rfl

attribute [local instance] Host.solitary Recovery.verbatim

/-- The brackets of a directory change. -/
theorem move_rebracketed : Move smallConfig ["[...id]"] ["[id]"]
    (smallFiles [("[...id]", .directory [("route.ts", smallRoute)])])
    (smallFiles [("[id]", .directory [("route.ts", smallRoute)])]) where
  resolved := by decide
  wellFormed := by decide
  entryNames := by decide
  isRenamed := rfl
  isDirectory := ⟨_, rfl⟩
  isFree := rfl
  endsShown := Segment.endsShown_singleton.2 (by decide)
  endsShown' := Segment.endsShown_singleton.2 (by decide)
  notIgnored := by decide
  notIgnored' := by decide
  sameKeys := by decide
  ancestors := ancestorsThere_singleton _ _
  distinct := distinct_small _

set_option maxRecDepth 100000 in
/-- The old path comes first here, so the route is there in the end. -/
theorem handleChanges_eq_fullBuild_rebracketed : ∃ old fresh final version' workspace,
    FullBuild smallConfig (smallFiles [("[...id]", .directory [("route.ts", smallRoute)])]) old ∧
    FullBuild smallConfig (smallFiles [("[id]", .directory [("route.ts", smallRoute)])]) fresh ∧
    runOn (handleChanges (fun _ _ _ => .notStarted) smallConfig
        [(.deleted, routeText smallConfig ["[...id]"]), (.added, routeText smallConfig ["[id]"])])
        ⟨some old, 1⟩ ⟨smallFiles [("[id]", .directory [("route.ts", smallRoute)])], []⟩ =
      ((.ok (), ⟨some final, version'⟩), workspace) ∧
    final = fresh := by
  have hrun : Formatter.WritesText fun _ _ _ => .notStarted := fun _ _ _ _ h => by cases h
  obtain ⟨old, hold⟩ : ∃ old, FullBuild smallConfig
      (smallFiles [("[...id]", .directory [("route.ts", smallRoute)])]) old :=
    exists_fullBuild_of_isOk (by decide +kernel)
  obtain ⟨fresh, final, version', workspace, hfresh, hr, hiff, -⟩ := handleChanges_eq_fullBuild_iff
    move_rebracketed hrun writesOutside_small (holdsRoute_small_iff.2 rfl)
    (fun _ => mem_iff_brings_small) hold 1 [] Generation.noRefusals
  exact ⟨old, fresh, final, version', workspace, hold, hfresh, hr, hiff.2 (by decide)⟩

/-- A directory is moved into one that does not show up. -/
theorem move_into_group : Move smallConfig ["x"] ["(g)", "x"]
    (smallFiles [("x", .directory [("route.ts", smallRoute)])])
    (smallFiles [("(g)", .directory [("x", .directory [("route.ts", smallRoute)])])]) where
  resolved := by decide
  wellFormed := by decide
  entryNames := by decide
  isRenamed := rfl
  isDirectory := ⟨_, rfl⟩
  isFree := rfl
  endsShown := Segment.endsShown_singleton.2 (by decide)
  endsShown' := (Segment.endsShown_cons (by decide)).2 (Segment.endsShown_singleton.2 (by decide))
  notIgnored := by decide
  notIgnored' := by decide
  sameKeys := by decide
  ancestors := by
    rintro (_ | ⟨first, _ | ⟨second, rest⟩⟩) back heq hback hends
    · exact absurd rfl hends.ne_nil
    · obtain ⟨rfl, -⟩ := List.cons.inj heq
      exact absurd (Segment.endsShown_singleton.1 hends) (by decide)
    · have hlength := congrArg List.length heq
      have hpos := List.length_pos_iff.2 hback
      simp only [List.length_cons, List.length_nil, List.length_append] at hlength
      omega
  distinct := distinct_small _

set_option maxRecDepth 100000 in
/-- The new path comes first here: the live tree does not have the moved route, and a full build has. -/
theorem handleChanges_ne_fullBuild : ∃ old fresh final version' workspace,
    Move smallConfig ["x"] ["(g)", "x"] (smallFiles [("x", .directory [("route.ts", smallRoute)])])
      (smallFiles [("(g)", .directory [("x", .directory [("route.ts", smallRoute)])])]) ∧
    FullBuild smallConfig (smallFiles [("x", .directory [("route.ts", smallRoute)])]) old ∧
    FullBuild smallConfig
      (smallFiles [("(g)", .directory [("x", .directory [("route.ts", smallRoute)])])]) fresh ∧
    runOn (handleChanges (fun _ _ _ => .notStarted) smallConfig
        [(.deleted, routeText smallConfig ["x"]), (.added, routeText smallConfig ["(g)", "x"])])
        ⟨some old, 1⟩
        ⟨smallFiles [("(g)", .directory [("x", .directory [("route.ts", smallRoute)])])], []⟩ =
      ((.ok (), ⟨some final, version'⟩), workspace) ∧
    final ≠ fresh := by
  have hrun : Formatter.WritesText fun _ _ _ => .notStarted := fun _ _ _ _ h => by cases h
  obtain ⟨old, hold⟩ : ∃ old, FullBuild smallConfig
      (smallFiles [("x", .directory [("route.ts", smallRoute)])]) old :=
    exists_fullBuild_of_isOk (by decide +kernel)
  obtain ⟨fresh, final, version', workspace, hfresh, hr, -, hne⟩ := runOn_handleChanges_of_gt
    move_into_group hrun writesOutside_small (holdsRoute_small_iff.2 rfl)
    (fun _ => mem_iff_brings_small) (by decide) hold 1 [] Generation.noRefusals
  exact ⟨old, fresh, final, version', workspace, move_into_group, hold, hfresh, hr, hne⟩

end Coordinator

end RouteBinder.Project
