import Mathlib.Data.String.Basic
import RouteBinder.Proofs.FileSystem.Changes
import RouteBinder.Proofs.Project.Runs
import RouteBinder.Proofs.Project.Targets

/-!
# RouteBinder.Proofs.Project.Batches

**Batches of changes.** A batch is sorted and then taken over one change at a time, on files in which
nothing but the two written files changes (`Generation.Written.at?_appDir`). When all changes of a batch
concern one place, the live tree stays what it is everywhere else, so what happens is described by the
node in this place: `Coordinator.Takes` says what one change makes of it, and `Coordinator.TakesAll` what
a list of changes makes of it.
-/

namespace RouteBinder.Project

open FileSystem Route Analysis Body

/-! ### Files that stay -/

/-- Both files are written outside of the directory of the routes. -/
def Config.WritesOutside [Host] (config : Config) : Prop :=
  ∀ destination, destination = config.clientPath ∨ destination = config.serverPath →
    destination.resolve = destination ∧
      ¬ config.appDir.parts <+: destination.parent.parts

/-- Writing both files leaves the directory of the routes as it is. -/
theorem Generation.Written.at?_appDir [Host] {config : Config} (hconfig : config.WritesOutside)
    {before after : FileTree} (h : Generation.Written config before after)
    {routes : List (String × FileTree)}
    (hroutes : before.at? config.appDir.parts = some (.directory routes)) :
    after.at? config.appDir.parts = some (.directory routes) := by
  induction h with
  | refl => exact hroutes
  | tail hsteps hstep ih =>
      obtain ⟨destination, content, faults, hdestination, rfl⟩ := hstep
      obtain ⟨hresolved, houtside⟩ := hconfig destination hdestination
      refine AtomicWrite.at?_write _ ?_ ?_ content ih houtside
      · exact hresolved ▸ Path.isAbsolute_resolve destination
      · exact hresolved ▸ Path.dots_not_mem_resolve destination

namespace Coordinator

attribute [local instance] Host.solitary

theorem writesOutside_small : smallConfig.WritesOutside := by
  rintro destination (rfl | rfl) <;> exact ⟨by decide, by decide⟩

/-! ### The order of a batch -/

theorem inOrder_iff {a b : Change × String} :
    inOrder a b = true ↔ a.2 < b.2 ∨ a.2 = b.2 ∧ a.1.rank ≤ b.1.rank := by
  simp only [inOrder, Bool.or_eq_true, Bool.and_eq_true, decide_eq_true_eq, beq_iff_eq]

theorem inOrder_trans (a b c : Change × String) (hab : inOrder a b = true)
    (hbc : inOrder b c = true) : inOrder a c = true := by
  rw [inOrder_iff] at hab hbc ⊢
  rcases hab with hab | ⟨hab, hrank⟩
  · rcases hbc with hbc | ⟨hbc, -⟩
    · exact Or.inl (hab.trans hbc)
    · exact Or.inl (hbc ▸ hab)
  · rcases hbc with hbc | ⟨hbc, hrank'⟩
    · exact Or.inl (hab ▸ hbc)
    · exact Or.inr ⟨hab.trans hbc, hrank.trans hrank'⟩

theorem inOrder_total (a b : Change × String) : (inOrder a b || inOrder b a) = true := by
  rw [Bool.or_eq_true, inOrder_iff, inOrder_iff]
  rcases lt_trichotomy a.2 b.2 with h | h | h
  · exact Or.inl (Or.inl h)
  · rcases le_total a.1.rank b.1.rank with hrank | hrank
    · exact Or.inl (Or.inr ⟨h, hrank⟩)
    · exact Or.inr (Or.inr ⟨h.symm, hrank⟩)
  · exact Or.inr (Or.inl h)

theorem eq_filter_append_filter {α : Type} (p : α → Bool) {items : List α}
    (h : items.Pairwise fun a b => p b = true → p a = true) :
    items = items.filter p ++ items.filter (!p ·) := by
  induction items with
  | nil => rfl
  | cons a rest ih =>
      obtain ⟨ha, hrest⟩ := List.pairwise_cons.1 h
      by_cases hp : p a = true
      · rw [List.filter_cons_of_pos hp, List.filter_cons_of_neg (by simp [hp]), List.cons_append,
          ← ih hrest]
      · have hnone : rest.filter p = [] :=
          List.filter_eq_nil_iff.2 fun b hb hpb => hp (ha b hb hpb)
        have hall : rest.filter (!p ·) = rest :=
          List.filter_eq_self.2 fun b hb => by
            rw [Bool.not_eq_true', ← Bool.not_eq_true]
            exact fun hpb => hp (ha b hb hpb)
        rw [List.filter_cons_of_neg hp, List.filter_cons_of_pos (by simp [hp]), hnone, hall,
          List.nil_append]

/-- When the paths of some changes come before those of all others, these changes come first. -/
theorem mergeSort_eq_append (p : Change × String → Bool) (changes : List (Change × String))
    (h : ∀ a ∈ changes, ∀ b ∈ changes, p a = true → p b = false → a.2 < b.2) :
    changes.mergeSort inOrder =
      (changes.mergeSort inOrder).filter p ++ (changes.mergeSort inOrder).filter (!p ·) := by
  refine eq_filter_append_filter p ?_
  have hsorted := List.pairwise_mergeSort inOrder_trans inOrder_total changes
  refine hsorted.imp_of_mem fun ha hb hab hpb => ?_
  by_contra hpa
  rw [Bool.not_eq_true] at hpa
  have hlt := h _ (List.mem_mergeSort.1 hb) _ (List.mem_mergeSort.1 ha) hpb hpa
  rcases inOrder_iff.1 hab with hab | ⟨hab, -⟩
  · exact hab.asymm hlt
  · exact hlt.ne' hab

/-! ### Changes of one node -/

variable [Host] [Recovery]
variable {run : Formatter.Runner} {config : Config} {refused : Generation.Refusals}
  {routes : List (String × FileTree)} {base : RouteTree} {keys : List String}

/-- Taking over one change of a batch. -/
def takeOver (run : Formatter.Runner) (config : Config)
    (refused : Generation.Refusals) (change : Change × String) : Coordination Unit := do
  let _ ← handleEvent run config change.1 (.ofString change.2) refused

theorem handleChanges_eq (run : Formatter.Runner) (config : Config)
    (changes : List (Change × String)) (refused : Generation.Refusals) :
    handleChanges run config changes refused =
      forM (changes.mergeSort inOrder) (takeOver run config refused) := rfl

/-- On files with these routes, taking over the change makes of the tree that has the first node in the
place the tree that has the second. -/
def Takes (run : Formatter.Runner) (config : Config) (refused : Generation.Refusals)
    (routes : List (String × FileTree)) (base : RouteTree) (keys : List String) (change : Change × String)
    (first second : Option RouteTree) : Prop :=
  ∀ live version workspace,
    workspace.files.at? config.appDir.parts = some (.directory routes) →
    base.replaceAt keys first = .ok live →
    ∃ applied live' version' workspace',
      runOn (handleEvent run config change.1 (.ofString change.2) refused) ⟨some live, version⟩ workspace =
        ((.ok applied, ⟨some live', version'⟩), workspace') ∧
      workspace'.files.at? config.appDir.parts = some (.directory routes) ∧
      base.replaceAt keys second = .ok live'

/-- The same for changes that are taken over one after the other. -/
def TakesAll (run : Formatter.Runner) (config : Config) (refused : Generation.Refusals)
    (routes : List (String × FileTree)) (base : RouteTree) (keys : List String) (changes : List (Change × String))
    (first second : Option RouteTree) : Prop :=
  ∀ live version workspace,
    workspace.files.at? config.appDir.parts = some (.directory routes) →
    base.replaceAt keys first = .ok live →
    ∃ live' version' workspace',
      runOn (forM changes (takeOver run config refused)) ⟨some live, version⟩ workspace =
        ((.ok (), ⟨some live', version'⟩), workspace') ∧
      workspace'.files.at? config.appDir.parts = some (.directory routes) ∧
      base.replaceAt keys second = .ok live'

theorem TakesAll.nil (node : Option RouteTree) :
    TakesAll run config refused routes base keys [] node node := fun live version workspace hroutes hlive =>
  ⟨live, version, workspace, rfl, hroutes, hlive⟩

theorem TakesAll.cons {change : Change × String} {changes : List (Change × String)}
    {first second third : Option RouteTree}
    (h : Takes run config refused routes base keys change first second)
    (hrest : TakesAll run config refused routes base keys changes second third) :
    TakesAll run config refused routes base keys (change :: changes) first third := by
  intro live version workspace hroutes hlive
  obtain ⟨applied, live', version', workspace', hrun, hroutes', hlive'⟩ :=
    h live version workspace hroutes hlive
  obtain ⟨live'', version'', workspace'', hrun', hroutes'', hlive''⟩ :=
    hrest live' version' workspace' hroutes' hlive'
  refine ⟨live'', version'', workspace'', ?_, hroutes'', hlive''⟩
  rw [List.forM_cons, runOn_bind, takeOver, runOn_bind, hrun]
  exact hrun'

theorem TakesAll.append {front back : List (Change × String)} {first second third : Option RouteTree}
    (hfront : TakesAll run config refused routes base keys front first second)
    (hback : TakesAll run config refused routes base keys back second third) :
    TakesAll run config refused routes base keys (front ++ back) first third := by
  intro live version workspace hroutes hlive
  obtain ⟨live', version', workspace', hrun, hroutes', hlive'⟩ :=
    hfront live version workspace hroutes hlive
  obtain ⟨live'', version'', workspace'', hrun', hroutes'', hlive''⟩ :=
    hback live' version' workspace' hroutes' hlive'
  refine ⟨live'', version'', workspace'', ?_, hroutes'', hlive''⟩
  rw [List.forM_append, runOn_bind, hrun]
  exact hrun'

/-- Changes that can all be taken over can be taken over together. -/
theorem TakesAll.exists {changes : List (Change × String)}
    (h : ∀ change ∈ changes, ∀ first, ∃ second,
      Takes run config refused routes base keys change first second) (first : Option RouteTree) :
    ∃ second, TakesAll run config refused routes base keys changes first second := by
  induction changes generalizing first with
  | nil => exact ⟨first, TakesAll.nil first⟩
  | cons change rest ih =>
      obtain ⟨second, hsecond⟩ := h change List.mem_cons_self first
      obtain ⟨third, hthird⟩ := ih (fun other ho => h other (List.mem_cons_of_mem _ ho)) second
      exact ⟨third, TakesAll.cons hsecond hthird⟩

/-- A node that no change touches, and that one of them makes, is there in the end. -/
theorem TakesAll.settled {changes : List (Change × String)} {final : Option RouteTree}
    (h : ∀ change ∈ changes, ∀ first, ∃ second,
      Takes run config refused routes base keys change first second ∧ (first = final → second = final))
    {first : Option RouteTree}
    (hfinal : first = final ∨ ∃ change ∈ changes, ∀ node,
      Takes run config refused routes base keys change node final) :
    TakesAll run config refused routes base keys changes first final := by
  induction changes generalizing first with
  | nil =>
      rcases hfinal with rfl | ⟨change, hmem, -⟩
      · exact TakesAll.nil first
      · cases hmem
  | cons change rest ih =>
      have hrest := fun other (ho : other ∈ rest) => h other (List.mem_cons_of_mem _ ho)
      rcases hfinal with rfl | ⟨decisive, hmem, hdecisive⟩
      · obtain ⟨second, hsecond, hkept⟩ := h change List.mem_cons_self first
        obtain rfl := hkept rfl
        exact TakesAll.cons hsecond (ih hrest (Or.inl rfl))
      · rcases List.mem_cons.1 hmem with rfl | hmem
        · exact TakesAll.cons (hdecisive first) (ih hrest (Or.inl rfl))
        · obtain ⟨second, hsecond, -⟩ := h change List.mem_cons_self first
          exact TakesAll.cons hsecond (ih hrest (Or.inr ⟨decisive, hmem, hdecisive⟩))

/-! ### Changes of route files at and below a place -/

variable {change : Change} {place rest : List String} {new : Option RouteTree}

/-- A change of a route file whose target is the place, or a place below it. What a build makes of the
target now is known. -/
structure Concerns (config : Config) (routes : List (String × FileTree)) (change : Change)
    (place rest : List String) (new : Option RouteTree) : Prop where
  resolved : config.appDir.resolve = config.appDir
  text : HasRouteText config (place ++ rest)
  notIgnored : ∀ name ∈ place ++ rest, RouteFiles.isIgnored name = false
  endsShown : Segment.EndsShown place
  node : Build.NodeAt config.routeFile config.appDir (.directory routes)
    (place ++ retained rest) new
  deleted : new = none → change = .deleted

theorem Concerns.isTarget (h : Concerns config routes change place rest new) :
    IsTarget (place ++ retained rest) :=
  isTarget_retained h.text h.notIgnored h.endsShown

/-- Such a change is a replacement at the keys of its target. -/
theorem Concerns.updated (h : Concerns config routes change place rest new) {files : FileTree}
    (hroutes : files.at? config.appDir.parts = some (.directory routes)) (live : RouteTree) :
    ∃ notices, updated config files (some live) change
        (.ofString (routeText config (place ++ rest))) =
      placed live ⟨config.appDir.descend (place ++ retained rest),
        Segment.keys place ++ Segment.keys (retained rest)⟩ ⟨new, notices⟩ := by
  have hnew : NodeAt config files (place ++ retained rest) new := by
    rw [NodeAt, routesIn_eq hroutes]
    exact h.node
  have hloc := locate?_descend h.resolved h.text.dots
  rw [retained_append h.endsShown] at hloc
  rw [ofString_routeText h.resolved h.text, ← Segment.keys_append]
  refine updated_of_place h.resolved h.isTarget ?_ hloc hnew h.deleted live
  exact List.append_ne_nil_of_left_ne_nil h.endsShown.ne_nil _

theorem Concerns.isRouteFile (h : Concerns config routes change place rest new) :
    RouteFiles.isRouteFile (.ofString (routeText config (place ++ rest))) config.appDir
      config.routeFile = true := by
  rw [ofString_routeText h.resolved h.text]
  exact isRouteFile_descend h.resolved h.text.dots h.notIgnored

theorem Concerns.keys_ne_nil (h : Concerns config routes change place rest new) :
    Segment.keys place ≠ [] := by
  refine Segment.keys_ne_nil (fun hn => ?_) h.endsShown
  exact h.isTarget.noEmpty (List.mem_append_left _ hn)

/-- A change with the place as its target puts a new node there, whatever was there before. -/
theorem Concerns.takes (h : Concerns config routes change place rest new)
    (hrun : Formatter.WritesText run) (houtside : config.WritesOutside)
    (hbase : base.AllOrdered) (hrest : retained rest = []) (first : Option RouteTree) :
    Takes run config refused routes base (Segment.keys place) (change, routeText config (place ++ rest))
      first new := by
  intro live version workspace hroutes hlive
  obtain ⟨live', hlive'⟩ : ∃ live', base.replaceAt (Segment.keys place) new = .ok live' :=
    RouteTree.exists_replaceWithin h.keys_ne_nil hlive new
  have hreplace : live.replaceAt (Segment.keys place ++ Segment.keys (retained rest)) new =
      .ok live' := by
    rw [hrest, Segment.keys_nil, List.append_nil]
    exact (RouteTree.replaceWithin_again h.keys_ne_nil hbase hlive).trans hlive'
  obtain ⟨notices, hupdated⟩ := h.updated hroutes live
  obtain ⟨result, workspace', hr, hresult, hwritten⟩ := runOn_handleEvent run
    ⟨some live, version⟩ workspace h.isRouteFile (hupdated.trans (placed_of_ok hreplace)) refused
  obtain rfl := hresult hrun
  exact ⟨true, live', version + 1, workspace', hr, hwritten.at?_appDir houtside hroutes, hlive'⟩

/-- A change with a target below the place changes the node there from inside, or is dropped. -/
theorem Concerns.exists_takes (h : Concerns config routes change place rest new)
    (hrun : Formatter.WritesText run) (houtside : config.WritesOutside)
    (hrest : retained rest ≠ []) (first : Option RouteTree) :
    ∃ second, Takes run config refused routes base (Segment.keys place)
        (change, routeText config (place ++ rest)) first second ∧
      (second = first ∨ ∃ node node', first = some node ∧ second = some node' ∧
        node.replaceWithin (Segment.keys place ++ Segment.keys (retained rest)) new
          (Segment.keys (retained rest)) = .ok node') := by
  have hkeys : Segment.keys (retained rest) ≠ [] :=
    Segment.keys_ne_nil (fun hn => h.isTarget.noEmpty (List.mem_append_right _ hn))
      (endsShown_retained hrest)
  -- Without the node in between, nothing is said about live trees.
  by_cases hthere : ∃ live, base.replaceAt (Segment.keys place) first = .ok live
  · obtain ⟨live, hlive⟩ := hthere
    cases hreplace : live.replaceAt (Segment.keys place ++ Segment.keys (retained rest)) new with
    | error cause =>
        refine ⟨first, ?_, Or.inl rfl⟩
        intro other version workspace hroutes hother
        obtain rfl := Except.ok.inj (hlive.symm.trans hother)
        obtain ⟨notices, hupdated⟩ := h.updated hroutes live
        exact ⟨false, live, version, _, runOn_handleEvent_of_noPlace run ⟨some live, version⟩
          workspace h.isRouteFile (hupdated.trans (placed_of_error hreplace)) refused, hroutes, hlive⟩
    | ok live' =>
        obtain ⟨node, node', rfl, hw, hlive'⟩ :=
          RouteTree.replaceWithin_below h.keys_ne_nil hkeys hlive hreplace
        refine ⟨some node', ?_, Or.inr ⟨node, node', rfl, rfl, hw⟩⟩
        intro other version workspace hroutes hother
        obtain rfl := Except.ok.inj (hlive.symm.trans hother)
        obtain ⟨notices, hupdated⟩ := h.updated hroutes live
        obtain ⟨result, workspace', hr, hresult, hwritten⟩ := runOn_handleEvent run
          ⟨some live, version⟩ workspace h.isRouteFile (hupdated.trans (placed_of_ok hreplace)) refused
        obtain rfl := hresult hrun
        exact ⟨true, live', version + 1, workspace', hr, hwritten.at?_appDir houtside hroutes,
          hlive'⟩
  · exact ⟨first, fun live _ _ _ hlive => absurd ⟨live, hlive⟩ hthere, Or.inl rfl⟩

end Coordinator

end RouteBinder.Project
