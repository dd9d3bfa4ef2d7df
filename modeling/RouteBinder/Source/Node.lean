import RouteBinder.Source.Kind

/-!
# RouteBinder.Source.Node

**Lossless source trees.** A node is a leaf with its text or a branch with children, and every node
also records its *place*: the blank text that stands between it and the token before it, and the
role it plays in its parent. Nothing of the source is lost, so

* `Node.text` gives back the source of a node exactly, from its first to its last token, and
* no position is needed anywhere: the text of a parent is its children's texts with their gaps.

Comments are nodes, too. They stand in the innermost construct that is open where they were written
and every view that analyses use (`namedChildren`, `firstNamed`) leaves them out.
-/

namespace RouteBinder.Source

/-- Where a node stands: the blanks in front of it, and its role in the parent. -/
structure Place where
  gap : String := ""
  role : Option Role := none
  deriving DecidableEq, Repr, Inhabited

/-- A node of a source tree. -/
inductive Node where
  | leaf (place : Place) (kind : Kind) (text : String)
  | branch (place : Place) (kind : Kind) (children : List Node)
  deriving Repr, Inhabited

namespace Node

/-! ### Projections -/

def place : Node → Place
  | .leaf place .. => place
  | .branch place .. => place

def kind : Node → Kind
  | .leaf _ kind _ => kind
  | .branch _ kind _ => kind

/-- The direct parts of a node; a leaf has none. -/
def children : Node → List Node
  | .leaf .. => []
  | .branch _ _ children => children

/-- The blanks between the node and the token before it. -/
def gap (node : Node) : String := node.place.gap

/-- The part of its parent the node is. -/
def role (node : Node) : Option Role := node.place.role

/-- The same node at another place. -/
def placedAt (node : Node) (place : Place) : Node :=
  match node with
  | .leaf _ kind text => .leaf place kind text
  | .branch _ kind children => .branch place kind children

/-- Punctuation and keywords are not named; every other node is. -/
def isNamed (node : Node) : Bool := node.kind != .symbol

/-- Is the node the punctuation mark or keyword `text`? -/
def isSymbol (node : Node) (text : String) : Bool :=
  match node with
  | .leaf _ .symbol found => found == text
  | _ => false

/-! ### Text -/

mutual
/-- The source of a node, from its first to its last token. -/
def text : Node → String
  | .leaf _ _ text => text
  | .branch _ _ children => textOfParts children true

/-- The source of consecutive parts: each is preceded by its gap, except the first of all, whose gap
belongs to the surroundings. -/
def textOfParts : List Node → Bool → String
  | [], _ => ""
  | part :: rest, isFirst =>
    (if isFirst then "" else part.gap) ++ (part.text ++ textOfParts rest false)
end

/-! ### Size -/

mutual
/-- The number of nodes, the node itself included. -/
def size : Node → Nat
  | .leaf .. => 1
  | .branch _ _ children => 1 + sizeOfParts children

def sizeOfParts : List Node → Nat
  | [] => 0
  | part :: rest => part.size + sizeOfParts rest
end

theorem size_pos (node : Node) : 0 < node.size := by
  cases node <;> simp only [size] <;> omega

theorem size_le_sizeOfParts {part : Node} : ∀ {parts : List Node},
    part ∈ parts → part.size ≤ sizeOfParts parts
  | first :: rest, h => by
    simp only [sizeOfParts]
    rcases List.mem_cons.1 h with rfl | h
    · omega
    · have := size_le_sizeOfParts h
      omega

/-- A child is smaller than its parent. -/
theorem size_lt_of_mem {child node : Node} (h : child ∈ node.children) : child.size < node.size := by
  cases node with
  | leaf => simp [children] at h
  | branch place kind parts =>
    have := size_le_sizeOfParts (by simpa [children] using h : child ∈ parts)
    simp only [size]
    omega

/-! ### Views -/

/-- The child that plays `role`; the first one if several do. -/
def field? (node : Node) (role : Role) : Option Node :=
  node.children.find? (·.role == some role)

/-- The constructs among the children, comments left out. -/
def namedChildren (node : Node) : List Node :=
  node.children.filter fun child => child.isNamed && child.kind != .comment

/-- The first construct among the children. -/
def firstNamed? (node : Node) : Option Node := node.namedChildren.head?

/-- The text of the child that plays `role`, empty when there is none. -/
def fieldText (node : Node) (role : Role) : String :=
  ((node.field? role).map text).getD ""

theorem mem_of_field? {node child : Node} {role : Role} (h : node.field? role = some child) :
    child ∈ node.children :=
  List.mem_of_find?_eq_some h

theorem mem_of_mem_namedChildren {node child : Node} (h : child ∈ node.namedChildren) :
    child ∈ node.children :=
  (List.mem_filter.1 h).1

theorem size_field?_lt {node child : Node} {role : Role} (h : node.field? role = some child) :
    child.size < node.size :=
  size_lt_of_mem (mem_of_field? h)

theorem size_namedChild_lt {node child : Node} (h : child ∈ node.namedChildren) :
    child.size < node.size :=
  size_lt_of_mem (mem_of_mem_namedChildren h)

theorem size_firstNamed?_lt {node child : Node} (h : node.firstNamed? = some child) :
    child.size < node.size :=
  size_namedChild_lt (List.mem_of_mem_head? h)

end Node

end RouteBinder.Source
