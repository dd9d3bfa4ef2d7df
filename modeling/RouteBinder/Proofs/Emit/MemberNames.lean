import RouteBinder.Emit.Client
import RouteBinder.Proofs.Project.BuiltNodes
import RouteBinder.Proofs.Project.Targets
import RouteBinder.Proofs.Text.Quoted

/-!
# RouteBinder.Proofs.Emit.MemberNames

**The names of members.** The object of a node consists of one member for each handler, named for its
verb, and one for each child, named for the upper case of its key (`hasMembers_bodyLines`). A later member
of the same name takes the place of an earlier one.

The verbs of a node are different, and so are the keys of its children. So two members have one name
exactly when the keys of two children differ in case only, or when the upper case of a child's key is a verb
that the node implements (`nodup_memberNames_iff_of_routeTree`). Nothing keeps directories from having such
names, and nothing is reported of them (`not_nodup_memberNames_casing`).
-/

namespace RouteBinder.Emit

open Text Route Project FileSystem Body

variable {emit : MemberEmitter} {directories : List String} {node : RouteTree}

/-! ### Members in the text -/

/-- The names of the members of a node's object, in their order. -/
def memberNames (node : RouteTree) : List String :=
  node.handlers.map (·.verb) ++ node.children.map fun e => Quoted.propertyKey e.1

/-- The lines are those of members with these names, one after the other. -/
def HasMembers (lines names : List String) : Prop :=
  ∃ members : List (String × List String), lines = members.flatMap (·.2) ∧
    members.map (·.1) = names ∧
    ∀ m ∈ members, ∃ text rest, m.2 = indent (m.1 ++ ": " ++ text) 1 :: rest

theorem HasMembers.nil : HasMembers [] [] :=
  ⟨[], rfl, rfl, fun _ h => absurd h List.not_mem_nil⟩

theorem HasMembers.cons {name text : String} {rest lines names : List String}
    (h : HasMembers lines names) :
    HasMembers (indent (name ++ ": " ++ text) 1 :: rest ++ lines) (name :: names) := by
  obtain ⟨members, rfl, rfl, hopen⟩ := h
  refine ⟨(name, indent (name ++ ": " ++ text) 1 :: rest) :: members, rfl, rfl, fun m hm => ?_⟩
  rcases List.mem_cons.1 hm with rfl | hm
  · exact ⟨text, rest, rfl⟩
  · exact hopen m hm

theorem HasMembers.append {lines lines' names names' : List String} (h : HasMembers lines names)
    (h' : HasMembers lines' names') : HasMembers (lines ++ lines') (names ++ names') := by
  obtain ⟨members, rfl, rfl, hopen⟩ := h
  obtain ⟨members', rfl, rfl, hopen'⟩ := h'
  refine ⟨members ++ members', by rw [List.flatMap_append], by rw [List.map_append], fun m hm => ?_⟩
  rcases List.mem_append.1 hm with hm | hm
  · exact hopen m hm
  · exact hopen' m hm

theorem hasMembers_handlers (emit : MemberEmitter) (directories : List String)
    (handlers : List Handler) :
    HasMembers (handlers.map (memberLine emit directories)) (handlers.map (·.verb)) := by
  induction handlers with
  | nil => exact HasMembers.nil
  | cons handler rest ih =>
      rw [List.map_cons, memberLine, String.append_assoc]
      change HasMembers (indent _ 1 :: [] ++ rest.map (memberLine emit directories)) _
      exact ih.cons

/-- What opens the object of a child starts with the name of its member. -/
theorem exists_childFrame (key : String) (segment : Segment) :
    ∃ text, (childFrame key segment).1 = Quoted.propertyKey key ++ ": " ++ text := by
  rw [childFrame]
  split
  · rename_i param type _ _
    refine ⟨"(" ++ param ++ ": " ++ type ++ ") => (\x7b", ?_⟩
    simp only [String.append_assoc]
    rfl
  · refine ⟨"\x7b", ?_⟩
    rw [String.append_assoc]
    rfl

theorem hasMembers_childLines (emit : MemberEmitter) (directories : List String)
    (children : List (String × RouteTree)) :
    HasMembers (childLines emit directories children)
      (children.map fun e => Quoted.propertyKey e.1) := by
  induction children with
  | nil => exact HasMembers.nil
  | cons entry rest ih =>
      obtain ⟨key, child⟩ := entry
      obtain ⟨text, hopening⟩ := exists_childFrame key (Segment.classify child.segment)
      rw [childLines]
      dsimp only
      rw [hopening, List.map_cons, List.append_cons]
      exact ih.cons

/-- The object of a node consists of the members for its handlers and its children. -/
theorem hasMembers_bodyLines (emit : MemberEmitter) (directories : List String) (node : RouteTree) :
    HasMembers (bodyLines emit directories node) (memberNames node) := by
  cases node with
  | node info children =>
      rw [bodyLines]
      exact (hasMembers_handlers emit directories info.handlers).append
        (hasMembers_childLines emit directories children)

/-! ### Different names -/

/-- The keys of the children have different upper cases, and none of them is that of a verb. -/
structure DistinctUpperCases (node : RouteTree) : Prop where
  keys : ∀ e ∈ node.children, ∀ e' ∈ node.children, upper e.1 = upper e'.1 → e.1 = e'.1
  verbs : ∀ e ∈ node.children, ∀ handler ∈ node.handlers, upper e.1 ≠ handler.verb

/-- Members of one node have different names exactly when the upper cases of their keys are different
from each other and from the verbs. -/
theorem nodup_memberNames_iff (hordered : node.Ordered)
    (hverbs : DistinctVerbs node.handlers) :
    (memberNames node).Nodup ↔ DistinctUpperCases node := by
  have hkeys : (node.children.map (·.1)).Nodup :=
    List.pairwise_map.2 (hordered.imp fun hlt => hlt.ne)
  have hnames : (node.children.map fun e => Quoted.propertyKey e.1) =
      (node.children.map (·.1)).map Quoted.propertyKey := by
    rw [List.map_map]
    rfl
  have hmixed : ∀ e ∈ node.children, ∀ handler ∈ node.handlers,
      handler.verb = Quoted.propertyKey e.1 ↔ upper e.1 = handler.verb := by
    intro e _ handler hmem
    rw [eq_comm, Quoted.propertyKey_eq_iff (Quoted.isIdentifier_of_mem_verbs (hverbs.known _ hmem))]
  rw [memberNames, hnames, List.nodup_append']
  constructor
  · intro h
    obtain ⟨-, hchildren, hapart⟩ := h
    refine ⟨fun e he e' he' hsame => ?_, fun e he handler hmem hsame => ?_⟩
    · exact List.inj_on_of_nodup_map hchildren (List.mem_map_of_mem he) (List.mem_map_of_mem he')
        (Quoted.propertyKey_inj.2 hsame)
    · refine hapart (List.mem_map_of_mem hmem) ?_
      rw [(hmixed e he handler hmem).2 hsame]
      exact List.mem_map_of_mem (List.mem_map_of_mem he)
  · intro h
    refine ⟨hverbs.nodup, hkeys.map_on ?_, ?_⟩
    · intro a ha b hb hsame
      obtain ⟨e, he, rfl⟩ := List.mem_map.1 ha
      obtain ⟨e', he', rfl⟩ := List.mem_map.1 hb
      exact h.keys e he e' he' (Quoted.propertyKey_inj.1 hsame)
    · intro name hverb hkey
      obtain ⟨handler, hmem, rfl⟩ := List.mem_map.1 hverb
      obtain ⟨key, hk, hsame⟩ := List.mem_map.1 hkey
      obtain ⟨e, he, rfl⟩ := List.mem_map.1 hk
      exact h.verbs e he handler hmem ((hmixed e he handler hmem).1 hsame.symm)

/-- Whatever a build makes, the object of every node consists of members for its handlers and children,
and their names are different exactly when the upper cases of the keys are different from each other and
from the verbs. -/
theorem nodup_memberNames_iff_of_routeTree [Host] [Recovery] {files : FileTree} {appDir : Path}
    {routeFile : String} {tree : RouteTree} {notices : List Notice}
    (h : Build.routeTree files appDir routeFile = .ok ⟨tree, notices⟩) {keys : List String}
    (hn : (keys, node) ∈ tree.nodes) (emit : MemberEmitter) (directories : List String) :
    HasMembers (bodyLines emit directories node) (memberNames node) ∧
      ((memberNames node).Nodup ↔ DistinctUpperCases node) := by
  obtain ⟨root, hroot⟩ := Build.exists_builds_of_routeTree h
  have hat := RouteTree.nodeAt?_of_mem_nodes hroot.allOrdered hn
  obtain ⟨place, below, hb⟩ := hroot.exists_builds_of_nodeAt? hat
  exact ⟨hasMembers_bodyLines emit directories node,
    nodup_memberNames_iff hb.ordered hb.distinctVerbs⟩

/-! ### Directories that differ in case only -/

/-- Two directories of routes whose names differ in case only. -/
def casedFiles : FileTree :=
  Coordinator.smallFiles
    [("Users", .directory [("route.ts", Coordinator.smallRoute)]),
      ("users", .directory [("route.ts", Coordinator.smallRoute)])]

attribute [local instance] Recovery.verbatim Host.solitary

set_option maxRecDepth 100000 in
theorem exists_routeTree_cased : ∃ tree,
    Build.routeTree casedFiles Coordinator.smallConfig.appDir "route.ts" = .ok ⟨tree, []⟩ ∧
      memberNames tree = ["USERS", "USERS"] := by
  have h : Build.passesQuietly casedFiles Coordinator.smallConfig.appDir "route.ts"
      (memberNames · == ["USERS", "USERS"]) = true := by decide +kernel
  obtain ⟨tree, htree, hnames⟩ := Build.exists_routeTree_of_passesQuietly h
  exact ⟨tree, htree, beq_iff_eq.1 hnames⟩

/-- The object of their project has two members with one name, and nothing is reported. -/
theorem not_nodup_memberNames_casing : ∃ tree,
    Build.routeTree casedFiles Coordinator.smallConfig.appDir "route.ts" = .ok ⟨tree, []⟩ ∧
      ([], tree) ∈ tree.nodes ∧ ¬ (memberNames tree).Nodup := by
  obtain ⟨tree, h, hnames⟩ := exists_routeTree_cased
  refine ⟨tree, h, RouteTree.mem_nodes_self tree, ?_⟩
  rw [hnames]
  decide

/-- The keys of the two children have one upper case. -/
theorem not_distinctUpperCases_casing : ∃ tree,
    Build.routeTree casedFiles Coordinator.smallConfig.appDir "route.ts" = .ok ⟨tree, []⟩ ∧
      HasMembers (bodyLines Client.member [] tree) (memberNames tree) ∧
      ¬ DistinctUpperCases tree := by
  obtain ⟨tree, h, hnames⟩ := exists_routeTree_cased
  obtain ⟨hmembers, hiff⟩ := nodup_memberNames_iff_of_routeTree h (RouteTree.mem_nodes_self tree)
    Client.member []
  refine ⟨tree, h, hmembers, fun hdistinct => ?_⟩
  have hnodup := hiff.2 hdistinct
  rw [hnames] at hnodup
  revert hnodup
  decide

end RouteBinder.Emit
