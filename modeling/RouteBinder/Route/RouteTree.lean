import RouteBinder.Handler
import RouteBinder.ImportSpec
import RouteBinder.Keyed
import RouteBinder.Notice

/-!
# RouteBinder.Route.RouteTree

**Route trees.** A node stands for one directory of the application that shows up in routes; it
carries the handlers and the imports of its route file, and its children are ordered by key. Trees are
values: an update makes a new tree.

* `RouteTree.merge` folds the tree of a directory that does not show up into the one above it. What
  is there first is kept.
* `RouteTree.nodeAt?` and `RouteTree.replaceAt` read and write the node that a path of keys leads to.
* `RouteTree.entries` lists the nodes in the order in which everything is emitted.
-/

namespace RouteBinder.Route

open FileSystem

/-- What a node carries itself. -/
structure RouteInfo where
  /-- The name of the directory. -/
  segment : String
  handlers : List Handler := []
  imports : List ImportSpec := []
  directory : Option Path := none
  deriving DecidableEq, Repr, Inhabited

inductive RouteTree where
  | node (info : RouteInfo) (children : List (String × RouteTree))
  deriving Repr, Inhabited

namespace RouteTree

/-! ### Equality -/

mutual
def decEq : (s t : RouteTree) → Decidable (s = t)
  | .node info children, .node info' children' =>
    have := decEqChildren children children'
    decidable_of_iff (info = info' ∧ children = children') (by simp)

def decEqChildren : (s t : List (String × RouteTree)) → Decidable (s = t)
  | [], [] => isTrue rfl
  | [], _ :: _ => isFalse nofun
  | _ :: _, [] => isFalse nofun
  | (key, child) :: s, (key', child') :: t =>
    have := decEq child child'
    have := decEqChildren s t
    decidable_of_iff (key = key' ∧ child = child' ∧ s = t) (by simp [and_assoc])
end

instance : DecidableEq RouteTree := decEq

/-! ### Parts -/

def info : RouteTree → RouteInfo
  | .node info _ => info

def children : RouteTree → List (String × RouteTree)
  | .node _ children => children

def segment (tree : RouteTree) : String := tree.info.segment

def handlers (tree : RouteTree) : List Handler := tree.info.handlers

def imports (tree : RouteTree) : List ImportSpec := tree.info.imports

def directory (tree : RouteTree) : Option Path := tree.info.directory

/-- The handler for a verb. -/
def handler? (tree : RouteTree) (verb : String) : Option Handler :=
  tree.handlers.find? (·.verb == verb)

/-- The child with a key. -/
def child? (tree : RouteTree) (key : String) : Option RouteTree := tree.children.lookup key

/-! ### Children -/

def withChild (tree : RouteTree) (key : String) (child : RouteTree) : RouteTree :=
  .node tree.info (Keyed.put key child tree.children)

def withoutChild (tree : RouteTree) (key : String) : RouteTree :=
  .node tree.info (Keyed.remove key tree.children)

/-- Adds a child, unless there is one with its key. -/
def addChild (tree : RouteTree) (key : String) (child : RouteTree) : Noted RouteTree :=
  match tree.child? key with
  | some _ => ⟨tree, [.duplicateRoute key tree.segment none]⟩
  | none => ⟨tree.withChild key child, []⟩

/-! ### Folding -/

/-- Adds the handlers of another node, unless their verbs are implemented. -/
def mergeHandlers (tree other : RouteTree) : Noted (List Handler) :=
  let (known, new) := other.handlers.partition fun h => (tree.handler? h.verb).isSome
  ⟨tree.handlers ++ new,
    known.map fun h => .duplicateHandler h.verb tree.segment other.segment⟩

/-- Adds the children of another node, unless their keys are taken. -/
def mergeChildren (tree other : RouteTree) : Noted (List (String × RouteTree)) :=
  let (known, new) := other.children.partition fun (key, _) => (tree.child? key).isSome
  ⟨new.foldl (fun children (key, child) => Keyed.put key child children) tree.children,
    known.map fun (key, _) => .duplicateRoute key tree.segment (some other.segment)⟩

/-- Folds another node into a node. -/
def merge (tree other : RouteTree) : Noted RouteTree := do
  let handlers ← mergeHandlers tree other
  let children ← mergeChildren tree other
  return .node { tree.info with handlers, imports := tree.imports ++ other.imports } children

/-! ### Key paths -/

/-- The node that a path of keys leads to. -/
def nodeAt? (tree : RouteTree) : List String → Option RouteTree
  | [] => some tree
  | key :: rest =>
    match tree.child? key with
    | some child => nodeAt? child rest
    | none => none

/-- The tree with another node, or none, where a path of keys leads. The last key may be new, but
every node on the way has to be there. `path` is the whole path, for the report. -/
def replaceWithin (path : List String) (new : Option RouteTree) (tree : RouteTree) :
    List String → Except NavigationError RouteTree
  | [] => new.elim (.error ⟨"", path⟩) .ok
  | [last] =>
    .ok (match new with
      | some subtree => tree.withChild last subtree
      | none => tree.withoutChild last)
  | key :: rest =>
    match tree.child? key with
    | none => .error ⟨key, path⟩
    | some child => (replaceWithin path new child rest).map (tree.withChild key)

/-- The tree with another node, or none, where a path of keys leads. -/
def replaceAt (tree : RouteTree) (path : List String) (new : Option RouteTree) :
    Except NavigationError RouteTree :=
  replaceWithin path new tree path

/-! ### Listing -/

mutual
/-- The nodes of a tree with the directories that lead to them, each before the nodes below it. -/
def entriesFrom (directories : List String) : RouteTree → List (List String × RouteTree)
  | .node info children =>
    (directories, .node info children) :: entriesOfChildren directories children

def entriesOfChildren (directories : List String) :
    List (String × RouteTree) → List (List String × RouteTree)
  | [] => []
  | (_, child) :: rest =>
    entriesFrom (directories ++ [child.segment]) child ++ entriesOfChildren directories rest
end

/-- The nodes of a tree with the directories that lead to them from its root. -/
def entries (tree : RouteTree) : List (List String × RouteTree) := entriesFrom [] tree

end RouteTree

end RouteBinder.Route
