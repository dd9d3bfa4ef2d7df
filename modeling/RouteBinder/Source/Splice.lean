import RouteBinder.Source.Walk

/-!
# RouteBinder.Source.Splice

**Replacing parts of a source text.** `Node.rendered` writes a node down while a `Transform` may put a text
in place of any node. A transform is asked about a node before the nodes in it, so the outermost matches
win, and the text in between stays as it is, blanks and comments included. The replacement may contain the
written form of smaller nodes, in which further matches are replaced, too.

`Node.splice` replaces nodes by what they are, and `Node.textWith` replaces children of one node by their
position.
-/

namespace RouteBinder.Source

/-- A rule for replacing the nodes of a tree: given a node and a way to write smaller nodes, the text for
the node, or nothing to keep it. -/
abbrev Transform := Located → (Located → String) → Option String

/-- The texts of consecutive parts, given with their gaps; the first gap belongs to the
surroundings. -/
def Node.assemble : List (String × String) → String
  | [] => ""
  | (_, first) :: rest => first ++ String.join (rest.map fun (gap, text) => gap ++ text)

/-- Writes the node at a position with the replacements that the transform asks for. -/
def Node.rendered (transform : Transform) (position : Position) (node : Node) : String :=
  let written := transform { node, position } fun part =>
    if _h : part.node.size < node.size then Node.rendered transform part.position part.node
    else part.node.text
  match written with
  | some replacement => replacement
  | none =>
    match node with
    | .leaf _ _ text => text
    | .branch _ _ children =>
      Node.assemble (children.attach.mapIdx fun place ⟨child, _h⟩ =>
        (child.gap, Node.rendered transform (position ++ [place]) child))
termination_by node.size
decreasing_by
  · exact _h
  · exact Node.size_lt_of_mem (by simpa [Node.children] using _h)

/-- A rule for replacing nodes wherever they stand. -/
abbrev Substitution := Node → (Node → String) → Option String

def Substitution.transform (substitution : Substitution) : Transform := fun here write =>
  substitution here.node fun part => write { here with node := part }

/-- A rule for replacing children of the root, by their positions. -/
def Transform.ofChildren (replace? : Nat → Option String) : Transform := fun here _ =>
  match here.position with
  | [place] => replace? place
  | _ => none

namespace Node

/-- Writes the node with the replacements that the substitution asks for. -/
def splice (substitution : Substitution) (node : Node) : String :=
  rendered substitution.transform [] node

/-- The text of a node in which the child at each position may be replaced. -/
def textWith (node : Node) (replace? : Nat → Option String) : String :=
  rendered (.ofChildren replace?) [] node

end Node

end RouteBinder.Source
