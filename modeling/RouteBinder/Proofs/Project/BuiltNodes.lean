import RouteBinder.Proofs.Analysis.HandledVerbs
import RouteBinder.Proofs.Project.Locality
import RouteBinder.Proofs.Route.Nodes

/-!
# RouteBinder.Proofs.Project.BuiltNodes

**The nodes of a built tree.** Whatever stands below the root of a built tree is the node of a directory
that shows up, at a place with the keys of the node (`Build.Builds.exists_showsNode_of_nodeAt?`). So what
holds of the node that a build gives holds of all nodes below it:

* the node carries the name and the path of its directory (`Build.Builds.isNodeOf`); and
* its handlers implement different verbs (`Build.Builds.distinctVerbs`).
-/

namespace RouteBinder.Project

open FileSystem Route Analysis Body

namespace Build

variable [Recovery] {routeFile : String} {directory : Path}

/-! ### Names and verbs -/

/-- A node stays that of its directory, whatever is folded into it. -/
theorem Builds.isNodeOf {tree : FileTree} {node : RouteTree}
    (h : Builds routeFile directory tree node) :
    node.directory = some directory ∧ node.segment = directory.name := by
  cases tree with
  | file content =>
      rw [builds_file.1 h]
      exact ⟨rfl, rfl⟩
  | directory entries =>
      obtain ⟨analysis, -, h⟩ := builds_directory.1 h
      refine h.induction (P := fun node => node.directory = some directory ∧
        node.segment = directory.name) ⟨rfl, rfl⟩ fun e _ _ subtree _ above habove => ?_
      rw [RouteTree.directory, RouteTree.segment, info_attach]
      split <;> exact habove

theorem distinctVerbs_analyzeFile {present : Option FileTree} {analysis : Noted ModuleAnalysis}
    (h : analyzeFile directory routeFile present = .ok analysis) :
    DistinctVerbs analysis.value.handlers := by
  rw [analyzeFile_eq] at h
  split at h
  · split at h
    · cases h
      exact DistinctVerbs.nil
    · split at h
      · rename_i hanalyze
        cases h
        exact distinctVerbs_analyze hanalyze
      · cases h
        exact DistinctVerbs.nil
      · cases h
  · cases h
    exact DistinctVerbs.nil

/-- The handlers of a built node implement different verbs: what is folded into it only adds verbs. -/
theorem Builds.distinctVerbs : ∀ {tree : FileTree} {directory : Path} {node : RouteTree},
    Builds routeFile directory tree node → DistinctVerbs node.handlers
  | .file content, _, _, h => by
      rw [builds_file.1 h]
      exact DistinctVerbs.nil
  | .directory entries, _, _, h => by
      obtain ⟨analysis, ha, h⟩ := builds_directory.1 h
      refine h.induction (P := fun node => DistinctVerbs node.handlers)
        (distinctVerbs_analyzeFile ha) fun e he _ subtree hs above habove => ?_
      rw [RouteTree.handlers, info_attach]
      split
      · exact habove.append (Builds.distinctVerbs hs)
      · exact habove
termination_by tree => sizeOf tree
decreasing_by
  have := List.sizeOf_lt_of_mem he
  obtain ⟨name, entry⟩ := e
  simp at this ⊢
  omega

/-- A directory that is not there is built like a file in its place. -/
theorem exists_builds_of_routeTree [Host] {files : FileTree} {tree : RouteTree} {notices : List Notice}
    (h : routeTree files directory routeFile = .ok ⟨tree, notices⟩) :
    ∃ root, Builds routeFile directory root tree := by
  rw [routeTree_eq] at h
  cases hfind : files.find? directory with
  | none =>
      rw [hfind] at h
      cases h
      exact ⟨.file .empty, builds_file.2 rfl⟩
  | some root =>
      rw [hfind] at h
      exact ⟨root, notices, h⟩

/-- The build gives a tree that passes the check, and nothing is reported. -/
def passesQuietly [Host] (files : FileTree) (directory : Path) (routeFile : String)
    (check : RouteTree → Bool) : Bool :=
  match routeTree files directory routeFile with
  | .ok noted => noted.notices.isEmpty && check noted.value
  | .error _ => false

theorem exists_routeTree_of_passesQuietly [Host] {files : FileTree} {check : RouteTree → Bool}
    (h : passesQuietly files directory routeFile check = true) :
    ∃ tree, routeTree files directory routeFile = .ok ⟨tree, []⟩ ∧ check tree = true := by
  rw [passesQuietly] at h
  cases hr : routeTree files directory routeFile with
  | error cause =>
      rw [hr] at h
      cases h
  | ok noted =>
      rw [hr] at h
      obtain ⟨tree, notices⟩ := noted
      obtain ⟨hnotices, hcheck⟩ := Bool.and_eq_true_iff.1 h
      obtain rfl := List.isEmpty_iff.1 hnotices
      exact ⟨tree, rfl, hcheck⟩

/-! ### Where nodes come from -/

omit [Recovery] in
theorem Shows.append {tree entry : FileTree} {front back : List String}
    (hi : ∀ name ∈ front, RouteFiles.isIgnored name = false) (hat : tree.at? front = some entry)
    (h : Shows entry back) : Shows tree (front ++ back) := by
  obtain ⟨hends, hignored, entries, hback⟩ := h
  refine ⟨(Segment.endsShown_append hends.ne_nil front).2 hends, fun name hn => ?_, entries, ?_⟩
  · rcases List.mem_append.1 hn with hn | hn
    · exact hi name hn
    · exact hignored name hn
  · rw [FileTree.at?_append, hat]
    exact hback

/-- What stands below the root of a built tree is the node of a directory with these keys. -/
theorem Builds.exists_showsNode_of_nodeAt? {tree : FileTree} {node found : RouteTree}
    {keys : List String} (hw : tree.wellFormed = true) (h : Builds routeFile directory tree node)
    (hk : keys ≠ []) (hn : node.nodeAt? keys = some found) :
    ∃ place, ShowsNode routeFile directory tree place found ∧ Segment.keys place = keys := by
  induction keys generalizing tree directory node with
  | nil => exact absurd rfl hk
  | cons key rest ih =>
      cases hc : node.child? key with
      | none =>
          rw [RouteTree.nodeAt?, hc] at hn
          cases hn
      | some child =>
          rw [RouteTree.nodeAt?_cons hc] at hn
          obtain ⟨front, hfront, hkey⟩ := h.exists_showsNode hw hc
          by_cases hr : rest = []
          · subst hr
            cases hn
            exact ⟨front, hfront, hkey⟩
          -- Below the directory of the child, the rest of the keys lead on.
          · obtain ⟨⟨-, hi, -⟩, entry, hat, hb⟩ := hfront
            obtain ⟨back, ⟨hshows, inner, hinner, hb'⟩, hkeys⟩ :=
              ih (FileTree.wellFormed_at? hw hat) hb hr hn
            refine ⟨front ++ back, ⟨hshows.append hi hat, inner, ?_, ?_⟩, ?_⟩
            · rw [FileTree.at?_append, hat]
              exact hinner
            · rwa [← Path.descend_descend]
            · rw [Segment.keys_append, hkey, hkeys, List.singleton_append]

end Build

end RouteBinder.Project
