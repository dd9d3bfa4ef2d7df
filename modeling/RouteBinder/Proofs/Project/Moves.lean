import Mathlib.Data.Set.Function
import RouteBinder.Proofs.FileSystem.Changes
import RouteBinder.Proofs.Project.Targets

/-!
# RouteBinder.Proofs.Project.Moves

**Moving a directory without changing its keys.** A directory can be moved into or out of a directory
that does not show up, or be given other brackets, and its node stays where it is in the route tree. A
`Move` goes in two steps, and the files between them have the directory at neither place. In all three
states no two directories that show up have the same keys, so that the trees that are built from them
differ by the node of the moved directory (`Move.exists_fullBuilds`).
-/

namespace RouteBinder.Project

open FileSystem Route Analysis Body

namespace Coordinator

variable [Host] {config : Config} {place place' : List String} {before after : FileTree}

/-- A directory of routes is moved from one place to another that has the same keys. -/
structure Move (config : Config) (place place' : List String) (before after : FileTree) : Prop where
  /-- The directory of the routes is given by its resolved path. -/
  resolved : config.appDir.resolve = config.appDir
  wellFormed : before.wellFormed = true
  entryNames : ∀ name ∈ place', FileTree.isEntryName name = true
  isRenamed : before.rename (config.appDir.parts ++ place) (config.appDir.parts ++ place') =
    some after
  isDirectory : ∃ entries, before.at? (config.appDir.parts ++ place) = some (.directory entries)
  isFree : before.at? (config.appDir.parts ++ place') = none
  endsShown : Segment.EndsShown place
  endsShown' : Segment.EndsShown place'
  notIgnored : ∀ name ∈ place, RouteFiles.isIgnored name = false
  notIgnored' : ∀ name ∈ place', RouteFiles.isIgnored name = false
  sameKeys : Segment.keys place' = Segment.keys place
  ancestors : AncestorsThere config before place'
  /-- No two directories that show up have the same keys. -/
  distinct : Set.InjOn Segment.keys {other | Build.Shows (routesIn config before) other}

namespace Move

/-- The files between the two steps of a move: the directory is at neither place. -/
def between (_ : Move config place place' before after) : FileTree :=
  before.erase (config.appDir.parts ++ place)

variable (h : Move config place place' before after)

include h

theorem entryNames_place : ∀ name ∈ config.appDir.parts ++ place,
    FileTree.isEntryName name = true := by
  obtain ⟨entries, hat⟩ := h.isDirectory
  exact FileTree.isEntryName_of_at? h.wellFormed hat

theorem entryNames_place' : ∀ name ∈ config.appDir.parts ++ place',
    FileTree.isEntryName name = true := by
  intro name hn
  rcases List.mem_append.1 hn with hn | hn
  · exact h.entryNames_place name (List.mem_append_left _ hn)
  · exact h.entryNames name hn

theorem isTarget : IsTarget place where
  noEmpty hn := (FileTree.isEntryName_iff.1 (h.entryNames_place _ (List.mem_append_right _ hn))).1 rfl
  noDots hn :=
    (FileTree.isEntryName_iff.1 (h.entryNames_place _ (List.mem_append_right _ hn))).2.2.1 rfl
  endsShown _ := h.endsShown
  notIgnored := h.notIgnored

theorem isTarget' : IsTarget place' where
  noEmpty hn := (FileTree.isEntryName_iff.1 (h.entryNames _ hn)).1 rfl
  noDots hn := (FileTree.isEntryName_iff.1 (h.entryNames _ hn)).2.2.1 rfl
  endsShown _ := h.endsShown'
  notIgnored := h.notIgnored'

theorem place_ne_place' : place ≠ place' := by
  rintro rfl
  obtain ⟨entries, hat⟩ := h.isDirectory
  rw [h.isFree] at hat
  cases hat

/-- Neither place lies inside the other: the keys would differ. -/
theorem apart : Apart place place' := by
  have hinside : ∀ {p q : List String}, Segment.keys p = Segment.keys q → "" ∉ q →
      Segment.EndsShown q → p ≠ q → ¬ p <+: q := by
    rintro p q hkeys hempty hends hne ⟨rest, rfl⟩
    have hrest : rest ≠ [] := by
      rintro rfl
      exact hne (List.append_nil p).symm
    rw [Segment.keys_append] at hkeys
    have hnil : Segment.keys rest = [] := List.append_right_eq_self.1 hkeys.symm
    exact Segment.keys_ne_nil (fun hn => hempty (List.mem_append_right _ hn))
      ((Segment.endsShown_append hrest p).1 hends) hnil
  exact ⟨hinside h.sameKeys.symm h.isTarget'.noEmpty h.endsShown' h.place_ne_place',
    hinside h.sameKeys h.isTarget.noEmpty h.endsShown h.place_ne_place'.symm⟩

theorem apart_full : Apart (config.appDir.parts ++ place) (config.appDir.parts ++ place') :=
  ⟨fun hp => h.apart.1 ((List.prefix_append_right_inj _).1 hp),
    fun hp => h.apart.2 ((List.prefix_append_right_inj _).1 hp)⟩

theorem full_ne_nil : config.appDir.parts ++ place ≠ [] :=
  List.append_ne_nil_of_right_ne_nil _ h.endsShown.ne_nil

/-! ### The three states of the files -/

theorem agree : FileTree.AgreeOutside (config.appDir.parts ++ place) before h.between :=
  FileTree.agreeOutside_erase _ _

theorem exists_insert : ∃ entries,
    before.at? (config.appDir.parts ++ place) = some (.directory entries) ∧
      FileTree.insert (.directory entries) (config.appDir.parts ++ place') h.between =
        some after := by
  obtain ⟨entries, hat⟩ := h.isDirectory
  obtain ⟨moved, hmoved, hinsert⟩ := FileTree.rename_eq_some.1 h.isRenamed
  obtain rfl := Option.some.inj (hat.symm.trans hmoved)
  exact ⟨entries, hat, hinsert⟩

theorem agree' : FileTree.AgreeOutside (config.appDir.parts ++ place') h.between after := by
  obtain ⟨entries, -, hinsert⟩ := h.exists_insert
  exact FileTree.agreeOutside_insert hinsert

theorem between_at?_place : h.between.at? (config.appDir.parts ++ place) = none :=
  FileTree.at?_erase_self h.full_ne_nil before

theorem between_at?_place' : h.between.at? (config.appDir.parts ++ place') = none := by
  rw [← h.agree.at?_of_apart h.apart_full, h.isFree]

theorem after_at?_place : after.at? (config.appDir.parts ++ place) = none := by
  rw [← h.agree'.at?_of_apart h.apart_full.symm, h.between_at?_place]

/-- The new place has what the old place had. -/
theorem after_at?_place' (rest : List String) :
    after.at? (config.appDir.parts ++ (place' ++ rest)) =
      before.at? (config.appDir.parts ++ (place ++ rest)) := by
  obtain ⟨entries, hat, hinsert⟩ := h.exists_insert
  rw [← List.append_assoc, ← List.append_assoc,
    FileTree.at?_append (config.appDir.parts ++ place') rest,
    FileTree.at?_append (config.appDir.parts ++ place) rest, hat, FileTree.at?_insert_self hinsert]

theorem wellFormed_between : h.between.wellFormed = true :=
  FileTree.wellFormed_erase _ h.wellFormed

theorem wellFormed_after : after.wellFormed = true := by
  obtain ⟨entries, hat, hinsert⟩ := h.exists_insert
  exact FileTree.wellFormed_insert hinsert h.wellFormed_between
    (FileTree.wellFormed_at? h.wellFormed hat) h.entryNames_place'

/-! ### Directories that show up -/

omit [Host] in
omit h in
/-- What shows up, by the files themselves. -/
theorem shows_iff {files : FileTree} {other : List String} :
    Build.Shows (routesIn config files) other ↔
      Segment.EndsShown other ∧ (∀ name ∈ other, RouteFiles.isIgnored name = false) ∧
        ∃ entries, files.at? (config.appDir.parts ++ other) = some (.directory entries) := by
  rw [Build.Shows]
  refine and_congr_right fun hends => and_congr_right fun _ => ?_
  rw [at?_routesIn files hends.ne_nil]

theorem shows_place : Build.Shows (routesIn config before) place :=
  shows_iff.2 ⟨h.endsShown, h.notIgnored, h.isDirectory⟩

theorem shows_place' : Build.Shows (routesIn config after) place' := by
  obtain ⟨entries, hat⟩ := h.isDirectory
  refine shows_iff.2 ⟨h.endsShown', h.notIgnored', entries, ?_⟩
  have hsame := h.after_at?_place' []
  rw [List.append_nil, List.append_nil] at hsame
  rw [hsame, hat]

theorem shows_of_between {other : List String}
    (ho : Build.Shows (routesIn config h.between) other) :
    Build.Shows (routesIn config before) other := by
  obtain ⟨hends, hignored, entries, hat⟩ := shows_iff.1 ho
  exact shows_iff.2 ⟨hends, hignored, FileTree.exists_directory_of_erase h.full_ne_nil hat⟩

theorem between_of_prefix {front : List String} (hf : place' <+: front) :
    h.between.at? (config.appDir.parts ++ front) = none := by
  obtain ⟨rest, rfl⟩ := hf
  rw [← List.append_assoc, FileTree.at?_append, h.between_at?_place']
  rfl

theorem shows_after_of_between {other : List String}
    (ho : Build.Shows (routesIn config h.between) other) :
    Build.Shows (routesIn config after) other := by
  obtain ⟨hends, hignored, entries, hat⟩ := shows_iff.1 ho
  obtain ⟨moved, -, hinsert⟩ := h.exists_insert
  refine shows_iff.2 ⟨hends, hignored, FileTree.exists_directory_insert hinsert hat fun hp => ?_⟩
  rw [h.between_of_prefix ((List.prefix_append_right_inj _).1 hp)] at hat
  cases hat

/-- A directory that shows up after the move is below the new place and was below the old one, or it was
there before. -/
theorem shows_before_of_after {other : List String}
    (ho : Build.Shows (routesIn config after) other) :
    (∃ rest, other = place' ++ rest ∧ Build.Shows (routesIn config before) (place ++ rest)) ∨
      ¬ place' <+: other ∧ ¬ place <+: other ∧ Build.Shows (routesIn config before) other := by
  obtain ⟨hends, hignored, entries, hat⟩ := shows_iff.1 ho
  by_cases hp : place' <+: other
  · obtain ⟨rest, rfl⟩ := hp
    refine Or.inl ⟨rest, rfl, shows_iff.2 ⟨?_, fun name hn => ?_, entries, ?_⟩⟩
    · by_cases hr : rest = []
      · rw [hr, List.append_nil]
        exact h.endsShown
      · exact (Segment.endsShown_append hr place).2 ((Segment.endsShown_append hr place').1 hends)
    · rcases List.mem_append.1 hn with hn | hn
      · exact h.notIgnored name hn
      · exact hignored name (List.mem_append_right _ hn)
    · rw [← h.after_at?_place', hat]
  -- Nothing is left in the old place.
  · have hplace : ¬ place <+: other := by
      rintro ⟨rest, rfl⟩
      rw [← List.append_assoc, FileTree.at?_append, h.after_at?_place] at hat
      cases hat
    refine Or.inr ⟨hp, hplace, ?_⟩
    by_cases hf : other <+: place'
    -- On the way to the new place, everything that shows up was there.
    · obtain ⟨back, rfl⟩ := hf
      have hback : back ≠ [] := by
        rintro rfl
        rw [List.append_nil] at hp
        exact hp List.prefix_rfl
      have hdots : ".." ∉ other := fun hn => h.isTarget'.noDots (List.mem_append_left _ hn)
      exact ⟨hends, hignored, (isDirectoryAt_routesIn h.resolved hdots hends.ne_nil before).1
        (h.ancestors other back rfl hback hends)⟩
    · refine h.shows_of_between (shows_iff.2 ⟨hends, hignored, entries, ?_⟩)
      have hapart : Apart (config.appDir.parts ++ place') (config.appDir.parts ++ other) :=
        ⟨fun hq => hp ((List.prefix_append_right_inj _).1 hq),
          fun hq => hf ((List.prefix_append_right_inj _).1 hq)⟩
      rw [h.agree'.at?_of_apart hapart, hat]

/-- After the move, too, no two directories that show up have the same keys. -/
theorem distinct_after :
    Set.InjOn Segment.keys {other | Build.Shows (routesIn config after) other} := by
  have hmoved : ∀ rest, Segment.keys (place' ++ rest) = Segment.keys (place ++ rest) := fun rest => by
    rw [Segment.keys_append, Segment.keys_append, h.sameKeys]
  intro a ha b hb hkeys
  rcases h.shows_before_of_after ha with ⟨rest, rfl, hrest⟩ | ⟨-, hpa, hbefore⟩
  · rw [hmoved] at hkeys
    rcases h.shows_before_of_after hb with ⟨rest', rfl, hrest'⟩ | ⟨-, hpb, hbefore'⟩
    · rw [hmoved] at hkeys
      rw [List.append_cancel_left (h.distinct hrest hrest' hkeys)]
    · obtain rfl := h.distinct hrest hbefore' hkeys
      exact absurd (List.prefix_append _ _) hpb
  · rcases h.shows_before_of_after hb with ⟨rest', rfl, hrest'⟩ | ⟨-, -, hbefore'⟩
    · rw [hmoved] at hkeys
      obtain rfl := h.distinct hbefore hrest' hkeys
      exact absurd (List.prefix_append _ _) hpa
    · exact h.distinct hbefore hbefore' hkeys

/-! ### Building -/

theorem after_isDirectory : ∃ entries,
    after.at? (config.appDir.parts ++ place') = some (.directory entries) := by
  obtain ⟨entries, hat⟩ := h.isDirectory
  have hsame := h.after_at?_place' []
  rw [List.append_nil, List.append_nil] at hsame
  exact ⟨entries, hsame.trans hat⟩

theorem ancestorsThere_between {other : List String} (hdots : ".." ∉ other)
    (hother : ∀ front back, other = front ++ back → back ≠ [] → ¬ place <+: front)
    (hbefore : AncestorsThere config before other) : AncestorsThere config h.between other := by
  intro front back heq hback hends
  have hfront : ".." ∉ front := fun hn => hdots (heq ▸ List.mem_append_left _ hn)
  have hthere := hbefore front back heq hback hends
  rw [isDirectoryAt_descend h.resolved hfront] at hthere ⊢
  obtain ⟨entries, hat⟩ := hthere
  refine FileTree.exists_directory_erase hat fun hp => ?_
  exact hother front back heq hback ((List.prefix_append_right_inj _).1 hp)

theorem noRouteFileAt_of_none {files : FileTree} {other : List String} (hdots : ".." ∉ other)
    (hat : files.at? (config.appDir.parts ++ other) = none) :
    NoRouteFileAt config files other := by
  intro _
  rw [FileTree.isFileAt, find?_descend h.resolved hdots, hat]
  rfl

theorem isolates_between : Isolates config h.between place := by
  obtain ⟨entries, hat⟩ := h.isDirectory
  refine isolates_of_injOn h.resolved h.isTarget h.wellFormed_between
    (h.ancestorsThere_between h.isTarget.noDots ?_
      (ancestorsThere_of_directory h.resolved h.isTarget.noDots hat))
    (h.noRouteFileAt_of_none h.isTarget.noDots h.between_at?_place) h.shows_place
    (fun _ => h.shows_of_between) h.distinct
  intro front back heq hback hp
  have hlength := hp.length_le
  rw [heq, List.length_append] at hlength
  have hpos := List.length_pos_iff.2 hback
  omega

theorem isolates_between' : Isolates config h.between place' := by
  refine isolates_of_injOn h.resolved h.isTarget' h.wellFormed_between
    (h.ancestorsThere_between h.isTarget'.noDots ?_ h.ancestors)
    (h.noRouteFileAt_of_none h.isTarget'.noDots h.between_at?_place') h.shows_place'
    (fun _ => h.shows_after_of_between) h.distinct_after
  intro front back heq _ hp
  exact h.apart.1 (hp.trans ⟨back, heq.symm⟩)

theorem analyzable_between [Recovery]
    (ha : Build.Analyzable config.routeFile config.appDir (routesIn config before)) :
    Build.Analyzable config.routeFile config.appDir (routesIn config h.between) := by
  refine analyzable_of_files ha fun other content hi hat => ⟨other, hi, h.agree.at?_file ?_ hat⟩
  rintro ⟨rest, heq⟩
  rw [← heq, FileTree.at?_append, h.between_at?_place] at hat
  cases hat

theorem analyzable_after [Recovery]
    (ha : Build.Analyzable config.routeFile config.appDir (routesIn config before)) :
    Build.Analyzable config.routeFile config.appDir (routesIn config after) := by
  refine analyzable_of_files ha fun other content hi hat => ?_
  by_cases hp : place' <+: other
  -- A route file of the moved directory was in the old place.
  · obtain ⟨rest, rfl⟩ := hp
    refine ⟨place ++ rest, fun name hn => ?_, ?_⟩
    · rcases List.mem_append.1 hn with hn | hn
      · exact h.notIgnored name hn
      · exact hi name (List.mem_append_right _ hn)
    · rw [List.append_assoc] at hat ⊢
      rw [← h.after_at?_place', hat]
  -- All others were there before, and between the two steps.
  · refine ⟨other, hi, h.agree.at?_file ?_ (h.agree'.at?_file ?_ hat)⟩
    · rintro ⟨rest, heq⟩
      rw [← heq, FileTree.at?_append, h.after_at?_place] at hat
      cases hat
    · intro hfull
      have hfile := (List.prefix_append_right_inj _).1 hfull
      rw [List.prefix_concat_iff] at hfile
      rcases hfile with heq | hfile
      · obtain ⟨entries, hdir⟩ := h.after_isDirectory
        rw [heq, hat] at hdir
        cases hdir
      · exact hp hfile

/-- The trees before and after the move differ in one place from the tree between the two steps. -/
theorem exists_fullBuilds [Recovery] {old : RouteTree} (hold : FullBuild config before old) :
    ∃ (base node node' fresh : RouteTree), base.AllOrdered ∧ FullBuild config after fresh ∧
      NodeAt config after place' (some node') ∧
      base.replaceAt (Segment.keys place) (some node) = .ok old ∧
      base.replaceAt (Segment.keys place) (some node') = .ok fresh := by
  have ha := ((fullBuild_iff h.resolved).1 hold).analyzable
  obtain ⟨base, hbase⟩ := exists_fullBuild h.resolved h.wellFormed_between (h.analyzable_between ha)
  obtain ⟨fresh, hfresh⟩ := exists_fullBuild h.resolved h.wellFormed_after (h.analyzable_after ha)
  obtain ⟨entries, hat⟩ := h.isDirectory
  obtain ⟨entries', hat'⟩ := h.after_isDirectory
  obtain ⟨node, hnode⟩ := exists_nodeAt_of_directory h.isTarget h.endsShown.ne_nil h.wellFormed ha hat
  obtain ⟨node', hnode'⟩ := exists_nodeAt_of_directory h.isTarget' h.endsShown'.ne_nil
    h.wellFormed_after (h.analyzable_after ha) hat'
  have hisolates := isolates_of_directory h.resolved h.isTarget h.endsShown.ne_nil h.wellFormed hat
    h.distinct
  have hisolates' := isolates_of_directory h.resolved h.isTarget' h.endsShown'.ne_nil
    h.wellFormed_after hat' h.distinct_after
  refine ⟨base, node, node', fresh, ((fullBuild_iff h.resolved).1 hbase).allOrdered, hfresh, hnode',
    ?_, ?_⟩
  · exact FullBuild.replaceAt h.resolved h.isTarget h.endsShown.ne_nil hbase hold h.agree.symm
      h.isolates_between hisolates hnode
  · rw [← h.sameKeys]
    exact FullBuild.replaceAt h.resolved h.isTarget' h.endsShown'.ne_nil hbase hfresh h.agree'
      h.isolates_between' hisolates' hnode'

end Move

end Coordinator

end RouteBinder.Project
