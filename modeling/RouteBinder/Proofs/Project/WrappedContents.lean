import RouteBinder.Proofs.Project.BuiltNodes
import RouteBinder.Proofs.Route.Folding

/-!
# RouteBinder.Proofs.Project.WrappedContents

**Directories around the contents of a directory.** When all that is in a directory is moved into a group in
it, or into a nest of groups and collectors, its node stays what it was (`alike_wrapped`): the innermost
directory is built as before, and each node around it has nothing and takes over all that is folded into it.

Only places change, since nodes record their directories and imports record where they are written.
`RouteTree.unplaced` leaves these out. Two runs of a build are `Alike` when they fail in the same way or give
nodes that agree up to places; neither the analysis of a file nor the folding of nodes looks at places, so a
directory is built alike wherever it stands (`alike_ofTree`).
-/

namespace RouteBinder

open FileSystem Route Body

/-- The last name of what stands in a directory. -/
theorem FileSystem.Path.name_child (directory : Path) (name : String) :
    (directory.child name).name = name := by
  rw [Path.child, Path.name, List.getLast?_concat, Option.getD_some]

/-- The import without the directory that it is written in. -/
def ImportSpec.unplaced (spec : ImportSpec) : ImportSpec := { spec with origin := none }

namespace Route

/-- What a node carries, without directories. -/
def RouteInfo.unplaced (info : RouteInfo) : RouteInfo :=
  { info with imports := info.imports.map ImportSpec.unplaced, directory := none }

namespace RouteTree

mutual
/-- The tree without the directories that it records. -/
def unplaced : RouteTree → RouteTree
  | .node info children => .node info.unplaced (unplacedChildren children)

def unplacedChildren : List (String × RouteTree) → List (String × RouteTree)
  | [] => []
  | (key, child) :: rest => (key, child.unplaced) :: unplacedChildren rest
end

theorem info_unplaced (tree : RouteTree) : tree.unplaced.info = tree.info.unplaced := by
  cases tree
  rfl

theorem children_unplaced (tree : RouteTree) :
    tree.unplaced.children = tree.children.map fun entry => (entry.1, entry.2.unplaced) := by
  cases tree with
  | node info children =>
      rw [unplaced, RouteTree.children, RouteTree.children]
      induction children with
      | nil => rfl
      | cons entry rest ih => rw [unplacedChildren, ih, List.map_cons]

theorem child?_unplaced (tree : RouteTree) (key : String) :
    tree.unplaced.child? key = (tree.child? key).map unplaced := by
  rw [child?, child?, children_unplaced]
  induction tree.children with
  | nil => rfl
  | cons entry rest ih =>
      rw [List.map_cons, Keyed.lookup_cons, Keyed.lookup_cons, ih]
      split <;> rfl

theorem Ordered.unplaced {tree : RouteTree} (h : tree.Ordered) : tree.unplaced.Ordered := by
  rw [Ordered, children_unplaced]
  exact List.Pairwise.map _ (fun _ _ hlt => hlt) h

/-- The nodes offer the same handlers, imports and children, up to places. -/
structure Agrees (tree other : RouteTree) : Prop where
  ordered : tree.Ordered
  ordered' : other.Ordered
  handlers_eq : tree.handlers = other.handlers
  imports_eq : tree.imports.map ImportSpec.unplaced = other.imports.map ImportSpec.unplaced
  child?_eq : ∀ key, (tree.child? key).map unplaced = (other.child? key).map unplaced

theorem Agrees.trans {first second third : RouteTree} (h : first.Agrees second)
    (h' : second.Agrees third) : first.Agrees third where
  ordered := h.ordered
  ordered' := h'.ordered'
  handlers_eq := h.handlers_eq.trans h'.handlers_eq
  imports_eq := h.imports_eq.trans h'.imports_eq
  child?_eq key := (h.child?_eq key).trans (h'.child?_eq key)

/-- Nodes of the same name that agree are the same up to places. -/
theorem Agrees.unplaced_eq {tree other : RouteTree} (h : tree.Agrees other)
    (hsegment : tree.segment = other.segment) : tree.unplaced = other.unplaced := by
  refine ext_of_child? h.ordered.unplaced h.ordered'.unplaced ?_ fun key => ?_
  · rw [info_unplaced, info_unplaced]
    exact (RouteInfo.mk.injEq ..).mpr ⟨hsegment, h.handlers_eq, h.imports_eq, rfl⟩
  · rw [child?_unplaced, child?_unplaced, h.child?_eq key]

/-- Folding does not look at places. -/
theorem Agrees.merge {tree other below below' : RouteTree} (h : tree.Agrees other)
    (hbelow : below.Agrees below') : (tree.merge below).value.Agrees (other.merge below').value where
  ordered := h.ordered.merge below
  ordered' := h.ordered'.merge below'
  handlers_eq := by
    rw [handlers, handlers, info_merge, info_merge, handlers_foldInfo, handlers_foldInfo]
    rw [← handlers, ← handlers, ← handlers, ← handlers, h.handlers_eq, hbelow.handlers_eq]
  imports_eq := by
    rw [imports, imports, info_merge, info_merge, foldInfo, foldInfo]
    dsimp only
    rw [List.map_append, List.map_append]
    exact congrArg₂ (· ++ ·) h.imports_eq hbelow.imports_eq
  child?_eq key := by
    rw [child?_merge _ hbelow.ordered, child?_merge _ hbelow.ordered', Option.map_or, Option.map_or,
      h.child?_eq key, hbelow.child?_eq key]

/-- Nor does adding a child. -/
theorem Agrees.addChild {tree other child child' : RouteTree} (h : tree.Agrees other)
    (hchild : child.unplaced = child'.unplaced) (key : String) :
    (tree.addChild key child).value.Agrees (other.addChild key child').value := by
  have hsome : (tree.child? key).isSome = (other.child? key).isSome := by
    rw [← Option.isSome_map, h.child?_eq key, Option.isSome_map]
  rw [addChild_eq_setChild, addChild_eq_setChild, hsome]
  split
  · exact h
  · refine ⟨h.ordered.setChild _ _, h.ordered'.setChild _ _, ?_, ?_, fun other => ?_⟩
    · rw [handlers, handlers, info_setChild, info_setChild]
      exact h.handlers_eq
    · rw [imports, imports, info_setChild, info_setChild]
      exact h.imports_eq
    · rw [child?_setChild, child?_setChild]
      split
      · exact congrArg some hchild
      · exact h.child?_eq other

end RouteTree

end Route

/-! ### Analyses of files that stand elsewhere -/

namespace Analysis

open Source

def ModuleAnalysis.unplaced (analysis : ModuleAnalysis) : ModuleAnalysis :=
  { analysis with imports := analysis.imports.map ImportSpec.unplaced }

theorem unplaced_addClausePart (spec : ImportSpec) (part : Node) :
    (addClausePart spec part).unplaced = addClausePart spec.unplaced part := by
  unfold addClausePart
  split <;> rfl

theorem unplaced_foldl_addClausePart (parts : List Node) (spec : ImportSpec) :
    (parts.foldl addClausePart spec).unplaced = parts.foldl addClausePart spec.unplaced := by
  induction parts generalizing spec with
  | nil => rfl
  | cons part rest ih => rw [List.foldl_cons, List.foldl_cons, ih, unplaced_addClausePart]

theorem unplaced_importSpec? (origin : Option Path) (statement : Node) :
    (importSpec? origin statement).map ImportSpec.unplaced = importSpec? none statement := by
  unfold importSpec?
  split
  · split
    · rw [Option.map_some, unplaced_foldl_addClausePart]
      rfl
    · rfl
  · rfl

theorem unplaced_importSpecs (program : Node) (origin : Option Path) :
    (importSpecs program origin).map ImportSpec.unplaced = importSpecs program none := by
  rw [importSpecs, List.map_filterMap]
  exact List.filterMap_congr fun statement _ => unplaced_importSpec? origin statement

/-- An analysis does not look at the directory of its source. -/
theorem unplaced_analyze [Recovery] (source : String) (origin : Option Path) :
    (analyze source origin).map ModuleAnalysis.unplaced = analyze source none := by
  unfold analyze
  split
  · rfl
  · dsimp only
    split
    · rw [Except.map, ModuleAnalysis.unplaced, unplaced_importSpecs]
    · rfl

end Analysis

namespace Project.Build

open Analysis

variable {routeFile : String}

theorem unplaced_analyzeFile [Recovery] (directory directory' : Path) (present : Option FileTree) :
    (analyzeFile directory routeFile present).map (·.value.unplaced) =
      (analyzeFile directory' routeFile present).map (·.value.unplaced) := by
  rw [analyzeFile_eq, analyzeFile_eq]
  split
  · split
    · rfl
    · rename_i source _
      have hanalyze := (unplaced_analyze source (some directory)).trans
        (unplaced_analyze source (some directory')).symm
      cases ha : analyze source (some directory) <;> cases ha' : analyze source (some directory')
      all_goals rw [ha, ha'] at hanalyze
      · cases hanalyze
        split <;> rfl
      · cases hanalyze
      · cases hanalyze
      · exact congrArg Except.ok (Except.ok.inj hanalyze)
  · rfl

/-! ### Builds that are alike -/

/-- The builds fail in the same way, or give nodes that agree up to places. -/
inductive Alike : Except CircularReturn (Noted RouteTree) → Except CircularReturn (Noted RouteTree) →
    Prop where
  | error (cause : CircularReturn) : Alike (.error cause) (.error cause)
  | ok {noted noted' : Noted RouteTree} (h : noted.value.Agrees noted'.value) :
      Alike (.ok noted) (.ok noted')

theorem Alike.trans {first second third : Except CircularReturn (Noted RouteTree)}
    (h : Alike first second) (h' : Alike second third) : Alike first third := by
  cases h with
  | error => exact h'
  | ok h =>
      cases h' with
      | ok h' => exact .ok (h.trans h')

/-- What is done alike with the results of alike builds is alike. -/
theorem Alike.bind {run run' : Except CircularReturn (Noted RouteTree)} (h : Alike run run')
    {next next' : Noted RouteTree → Except CircularReturn (Noted RouteTree)}
    (hnext : ∀ noted noted', run = .ok noted → run' = .ok noted' →
      noted.value.Agrees noted'.value → Alike (next noted) (next' noted')) :
    Alike (run.bind next) (run'.bind next') := by
  cases h with
  | error => exact .error _
  | ok h => exact hnext _ _ rfl rfl h

theorem segment_of_ofTree [Recovery] {directory : Path} {tree : FileTree} {noted : Noted RouteTree}
    (h : ofTree routeFile directory tree = .ok noted) : noted.value.segment = directory.name :=
  (Builds.isNodeOf ⟨noted.notices, h⟩).2

theorem agrees_bareNode (directory directory' : Path) {analysis analysis' : ModuleAnalysis}
    (h : analysis.unplaced = analysis'.unplaced) :
    (bareNode directory analysis).Agrees (bareNode directory' analysis') where
  ordered := ordered_bareNode directory analysis
  ordered' := ordered_bareNode directory' analysis'
  handlers_eq := (ModuleAnalysis.mk.inj h).1
  imports_eq := (ModuleAnalysis.mk.inj h).2
  child?_eq _ := rfl

theorem agrees_attach {name : String} {node node' subtree subtree' : RouteTree}
    (h : node.Agrees node') (hsubtree : subtree.Agrees subtree')
    (hsegment : subtree.segment = subtree'.segment) :
    (attach name subtree node).value.Agrees (attach name subtree' node').value := by
  unfold attach
  dsimp only
  split
  · exact h.merge hsubtree
  · exact h.addChild (hsubtree.unplaced_eq hsegment) _

mutual
/-- A directory is built alike wherever it stands. -/
theorem alike_ofTree [Recovery] (directory directory' : Path) : ∀ tree : FileTree,
    Alike (ofTree routeFile directory tree) (ofTree routeFile directory' tree)
  | .file _ => .ok (agrees_bareNode directory directory' rfl)
  | .directory entries => by
      have hanalysis :
          (analyzeFile directory routeFile (entries.lookup routeFile)).map (·.value.unplaced) =
            (analyzeFile directory' routeFile (entries.lookup routeFile)).map (·.value.unplaced) :=
        unplaced_analyzeFile directory directory' (entries.lookup routeFile)
      rw [ofTree_directory, ofTree_directory]
      cases ha : analyzeFile directory routeFile (entries.lookup routeFile) <;>
        cases ha' : analyzeFile directory' routeFile (entries.lookup routeFile)
      all_goals rw [ha, ha'] at hanalysis
      · cases hanalysis
        exact .error _
      · cases hanalysis
      · cases hanalysis
      · exact alike_attachAll directory directory' entries
          (agrees_bareNode directory directory' (Except.ok.inj hanalysis))

theorem alike_attachAll [Recovery] (directory directory' : Path) : ∀ (entries : List (String × FileTree))
    {node node' : Noted RouteTree}, node.value.Agrees node'.value →
    Alike (attachAll routeFile directory node entries) (attachAll routeFile directory' node' entries)
  | [], _, _, h => .ok h
  | (name, entry) :: rest, node, node', h => by
      by_cases htaken : isTaken name entry = true
      · rw [attachAll_cons_of_taken htaken, attachAll_cons_of_taken htaken]
        refine (alike_ofTree (directory.child name) (directory'.child name) entry).bind
          fun subtree subtree' hs hs' hsubtree => alike_attachAll directory directory' rest ?_
        refine agrees_attach h hsubtree ?_
        rw [segment_of_ofTree hs, segment_of_ofTree hs', Path.name_child, Path.name_child]
      · rw [Bool.not_eq_true] at htaken
        rw [attachAll_cons_of_not_taken htaken, attachAll_cons_of_not_taken htaken]
        exact alike_attachAll directory directory' rest h
end

/-! ### Contents in a nest of directories -/

/-- A directory with the entries in a nest of directories of these names. -/
def wrapped (names : List String) (entries : List (String × FileTree)) : FileTree :=
  names.foldr (fun name inner => .directory [(name, inner)]) (.directory entries)

theorem isDirectory_wrapped (names : List String) (entries : List (String × FileTree)) :
    (wrapped names entries).isDirectory = true := by
  cases names <;> rfl

/-- The name of a group begins with its parenthesis, that of a collector with a letter. -/
theorem head?_of_isTransparentName {name : String} (h : Segment.isTransparentName name = true)
    {c : Char} (hc : name.toList.head? = some c) : c = '(' ∨ c.toLower = 'a' := by
  rw [Segment.isTransparentName, Segment.classify] at h
  split at h
  · cases h
  · cases h
  · cases h
  · rename_i hgroup
    rw [Segment.between?] at hgroup
    split at hgroup
    · rename_i hmarks
      simp only [Bool.and_eq_true, List.isPrefixOf_iff_prefix] at hmarks
      obtain ⟨rest, hrest⟩ := hmarks.1.1
      rw [← hrest] at hc
      exact Or.inl (Option.some.inj hc).symm
    · cases hgroup
  · split at h
    · rename_i hlower
      have hletters := congrArg String.toList (beq_iff_eq.1 hlower)
      rw [Text.lowerAscii, String.toList_ofList] at hletters
      have hhead := congrArg List.head? hletters
      rw [List.head?_map, hc] at hhead
      exact Or.inr (Option.some.inj hhead)
    · cases h

/-- Groups and collectors are never ignored. -/
theorem not_isIgnored_of_isTransparentName {name : String}
    (h : Segment.isTransparentName name = true) : RouteFiles.isIgnored name = false := by
  have htools : ∀ tool ∈ RouteFiles.toolDirectories, Segment.isTransparentName tool = false := by
    decide
  have hother : ∀ c ∈ ['.', '_'], ¬(c = '(' ∨ c.toLower = 'a') := by
    intro c hc
    rcases List.mem_pair.1 hc with rfl | rfl <;> decide
  have hhead : ∀ c ∈ ['.', '_'], name.toList.head? ≠ some c := fun c hc hhead =>
    hother c hc (head?_of_isTransparentName h hhead)
  rw [RouteFiles.isIgnored]
  simp only [Bool.or_eq_false_iff, beq_eq_false_iff_ne, List.contains_eq_mem, decide_eq_false_iff_not]
  refine ⟨⟨hhead '.' (by decide), hhead '_' (by decide)⟩, fun htool => ?_⟩
  rw [htools name htool] at h
  cases h

/-- A directory in which nothing else stands takes over the node of the one that is folded into it. -/
theorem agrees_merge_bareNode (directory : Path) {subtree : RouteTree} (h : subtree.Ordered) :
    ((bareNode directory {}).merge subtree).value.Agrees subtree := by
  rw [RouteTree.merge_into_nothing h rfl rfl rfl]
  exact
    { ordered := h
      ordered' := h
      handlers_eq := rfl
      imports_eq := rfl
      child?_eq := fun _ => rfl }

/-- A directory with nothing but a group or a collector in it is built like that. -/
theorem alike_singleton [Recovery] {directory : Path} {name : String} {inner : FileTree}
    (hname : Segment.isTransparentName name = true) (hinner : inner.isDirectory = true) :
    Alike (ofTree routeFile directory (.directory [(name, inner)]))
      (ofTree routeFile (directory.child name) inner) := by
  have htaken : isTaken name inner = true := by
    rw [isTaken, hinner, not_isIgnored_of_isTransparentName hname]
    rfl
  -- The directory may have the name of the route file, but is none.
  have hnofile : analyzeFile directory routeFile ([(name, inner)].lookup routeFile) = .ok ⟨{}, []⟩ := by
    cases inner with
    | file content => cases hinner
    | directory entries =>
        rw [Keyed.lookup_cons]
        split <;> rfl
  rw [ofTree_directory, hnofile]
  change Alike (attachAll routeFile directory ⟨bareNode directory {}, []⟩ [(name, inner)]) _
  rw [attachAll_cons_of_taken htaken]
  cases hsubtree : ofTree routeFile (directory.child name) inner with
  | error cause => exact .error cause
  | ok subtree =>
      refine .ok ?_
      change (attach name subtree.value (bareNode directory {})).value.Agrees _
      rw [attach_of_transparent hname]
      exact agrees_merge_bareNode directory (Builds.ordered ⟨subtree.notices, hsubtree⟩)

/-- The node of a directory whose contents are moved into a nest of groups and collectors stays the same
up to places. -/
theorem alike_wrapped [Recovery] {directory : Path} {names : List String}
    (hnames : ∀ name ∈ names, Segment.isTransparentName name = true)
    (entries : List (String × FileTree)) :
    Alike (ofTree routeFile directory (wrapped names entries))
      (ofTree routeFile directory (.directory entries)) := by
  induction names generalizing directory with
  | nil => exact alike_ofTree directory directory _
  | cons name rest ih =>
      obtain ⟨hname, hrest⟩ := List.forall_mem_cons.1 hnames
      exact (alike_singleton hname (isDirectory_wrapped rest entries)).trans
        ((ih hrest).trans (alike_ofTree _ _ _))

theorem unplaced_ofTree_wrapped [Recovery] {directory : Path} {names : List String}
    (hnames : ∀ name ∈ names, Segment.isTransparentName name = true)
    (entries : List (String × FileTree)) :
    (ofTree routeFile directory (wrapped names entries)).map (·.value.unplaced) =
      (ofTree routeFile directory (.directory entries)).map (·.value.unplaced) := by
  have halike : Alike (ofTree routeFile directory (wrapped names entries))
      (ofTree routeFile directory (.directory entries)) := alike_wrapped hnames entries
  cases hwrapped : ofTree routeFile directory (wrapped names entries) <;>
    cases hplain : ofTree routeFile directory (.directory entries)
  all_goals rw [hwrapped, hplain] at halike
  · cases halike
    rfl
  · cases halike
  · cases halike
  · cases halike with
    | ok h =>
        have hsegment := (segment_of_ofTree hwrapped).trans (segment_of_ofTree hplain).symm
        exact congrArg Except.ok (h.unplaced_eq hsegment)

/-- **Folding.** Of three nodes with their children in order, the first two or the last two can be folded
first. A node that brings no handlers, children and imports changes nothing, and handlers for different
verbs on both sides make handlers for different verbs. So a directory whose contents are moved into a nest
of groups and collectors has the same handlers, children and imports as before, except for the directories
that nodes and imports record. -/
theorem folding_laws [Recovery] [Host] :
    (∀ first second third : RouteTree, first.Ordered → second.Ordered → third.Ordered →
      ((first.merge second).value.merge third).value =
        (first.merge (second.merge third).value).value) ∧
    (∀ tree nothing : RouteTree, tree.Ordered → nothing.handlers = [] → nothing.children = [] →
      nothing.imports = [] → (tree.merge nothing).value = tree) ∧
    (∀ tree other : RouteTree, (tree.handlers.map (·.verb)).Nodup →
      (other.handlers.map (·.verb)).Nodup →
      ((tree.merge other).value.handlers.map (·.verb)).Nodup) ∧
    ∀ (routeFile : String) (files files' : FileTree) (directory : Path) (names : List String)
      (entries : List (String × FileTree)),
      (∀ name ∈ names, Segment.isTransparentName name = true) →
      files.find? directory = some (.directory entries) →
      files'.find? directory = some (wrapped names entries) →
      (routeTree files' directory routeFile).map (·.value.unplaced) =
        (routeTree files directory routeFile).map (·.value.unplaced) := by
  refine ⟨fun _ _ _ => RouteTree.merge_assoc, fun _ _ => RouteTree.merge_of_nothing,
    fun _ _ => RouteTree.nodup_verbs_merge, ?_⟩
  intro routeFile files files' directory names entries hnames hplain hwrapped
  rw [routeTree_eq, routeTree_eq, hplain, hwrapped]
  exact unplaced_ofTree_wrapped hnames entries

/-- A shop with handlers for two verbs and a child. -/
def shopNode : RouteTree :=
  .node { segment := "shop", handlers := [{ verb := "GET" }, { verb := "POST" }] }
    [("cart", .node { segment := "cart" } [])]

/-- A group that brings a verb and a child which are there, and others which are not. -/
def saleNode : RouteTree :=
  .node { segment := "(sale)", handlers := [{ verb := "POST" }, { verb := "PUT" }] }
    [("cart", .node { segment := "[cart]" } []), ("items", .node { segment := "items" } [])]

attribute [local instance] Recovery.verbatim Host.solitary

/-- The contents of a shop, once in the directory itself and once in a collector in a group in it. -/
theorem folding_laws_shop :
    ((shopNode.merge saleNode).value.merge shopNode).value =
        (shopNode.merge (saleNode.merge shopNode).value).value ∧
      (shopNode.merge (.node { segment := "(empty)" } [])).value = shopNode ∧
      ((shopNode.merge saleNode).value.handlers.map (·.verb)).Nodup ∧
      (routeTree (.directory [("app", wrapped ["(sale)", "API"] [("cart", .directory [])])])
          (.ofString "/app") "route.ts").map (·.value.unplaced) =
        (routeTree (.directory [("app", .directory [("cart", .directory [])])])
          (.ofString "/app") "route.ts").map (·.value.unplaced) := by
  refine ⟨folding_laws.1 _ _ _ (by decide) (by decide) (by decide),
    folding_laws.2.1 _ _ (by decide) rfl rfl rfl,
    folding_laws.2.2.1 _ _ (by decide) (by decide), ?_⟩
  exact folding_laws.2.2.2 "route.ts" _ _ (.ofString "/app") ["(sale)", "API"]
    [("cart", .directory [])] (by decide) (by decide) (by decide)

end Project.Build

end RouteBinder
