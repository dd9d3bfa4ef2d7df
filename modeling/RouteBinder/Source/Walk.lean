import RouteBinder.Source.Node

/-!
# RouteBinder.Source.Walk

**Walks over source trees.** `Node.preorder` lists every node of a tree, parents first; `Node.visit` is
the loop that does so with a stack of the nodes that are still to come. `Node.ownNodes` leaves out the
functions nested in a tree: it lists what belongs to the body of one function itself, since what a nested
function reads, declares or returns is its own business. The starting node is always listed, whatever it
is.

Some questions are about the surroundings of a node. They are answered on a `Spot`, which is a node
together with the nodes that it stands in. Where it matters which of several equal nodes is meant, a node
is `Located` by its position.
-/

namespace RouteBinder.Source

/-- Constructs that have a body of their own. -/
def Kind.isFunction : Kind → Bool
  | .functionDeclaration | .functionExpression | .arrowFunction | .methodDefinition
  | .generatorFunctionDeclaration | .generatorFunction => true
  | _ => false

namespace Node

def isFunction (node : Node) : Bool := node.kind.isFunction

/-- Is the node left out of the function around it? A nested function is, and so is the keyword that a
function begins with, which goes by the same name as a function. -/
def opensFunction (node : Node) : Bool := node.isFunction || node.isSymbol "function"

/-! ### All nodes -/

mutual
/-- Every node of the tree, each before the nodes in it. -/
def preorder : Node → List Node
  | .leaf place kind text => [.leaf place kind text]
  | .branch place kind children => .branch place kind children :: preorderOfParts children

def preorderOfParts : List Node → List Node
  | [] => []
  | part :: rest => part.preorder ++ preorderOfParts rest
end

theorem sizeOfParts_append (parts others : List Node) :
    sizeOfParts (parts ++ others) = sizeOfParts parts + sizeOfParts others := by
  induction parts with
  | nil => simp [sizeOfParts]
  | cons part rest ih =>
      rw [List.cons_append, sizeOfParts, sizeOfParts, ih, Nat.add_assoc]

theorem sizeOfParts_children_lt (node : Node) : sizeOfParts node.children < node.size := by
  cases node <;> simp [children, size, sizeOfParts]

/-- Visits the nodes on a stack, the top of which stands in front: the next one is taken from the stack,
and its children are put there in its place. -/
def visit : List Node → List Node
  | [] => []
  | node :: stack => node :: visit (node.children ++ stack)
termination_by stack => sizeOfParts stack
decreasing_by
  rw [sizeOfParts_append, sizeOfParts]
  exact Nat.add_lt_add_right (sizeOfParts_children_lt node) _

/-! ### The nodes of one function -/

mutual
/-- The nodes of the tree that are not in a nested function. -/
def ownNodes : Node → List Node
  | .leaf place kind text => [.leaf place kind text]
  | .branch place kind children => .branch place kind children :: ownNodesOfParts children

def ownNodesOfParts : List Node → List Node
  | [] => []
  | part :: rest =>
    if part.opensFunction then ownNodesOfParts rest else part.ownNodes ++ ownNodesOfParts rest
end

end Node

/-- A node and the nodes that it stands in, nearest first. -/
structure Spot where
  node : Node
  above : List Node := []
  deriving Inhabited

namespace Spot

/-- The nearest node that the spot stands in. -/
def parent? (spot : Spot) : Option Node := spot.above.head?

mutual
/-- The spots of the nodes that are not in a nested function. -/
def own (above : List Node) : Node → List Spot
  | .leaf place kind text => [⟨.leaf place kind text, above⟩]
  | .branch place kind children =>
    let node := Node.branch place kind children
    ⟨node, above⟩ :: ownOfParts (node :: above) children

def ownOfParts (above : List Node) : List Node → List Spot
  | [] => []
  | part :: rest =>
    if part.opensFunction then ownOfParts above rest else own above part ++ ownOfParts above rest
end

end Spot

/-- A position in a tree, as the places on the way from parent to child. -/
abbrev Position := List Nat

/-- A node of a tree, and where it stands in the tree. -/
structure Located where
  node : Node
  position : Position := []
  deriving Inhabited

end RouteBinder.Source
