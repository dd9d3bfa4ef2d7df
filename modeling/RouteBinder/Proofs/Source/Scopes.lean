import Mathlib.Data.List.Forall2
import RouteBinder.Source.Walk

/-!
# RouteBinder.Proofs.Source.Scopes

**Where a name is in force.** A position in a tree is the list of places that leads there, from parent to
child. A name in a declaring place (the name of a declarator, of a function or of a class, a parameter, a
part of a pattern in one of these) is declared for a scope, which is a node around it: a block, a loop, a
`catch`, a function, or for `var` the body of a function. It is in force at each position in the scope
(`Node.InForce`), in front of the declaration and in its initial value as well.

All of this depends on the kinds and the roles of the nodes around a name, and on nothing else
(`scopeDepth?_congr`), so replacing expressions leaves it alone.
-/

namespace RouteBinder.Source

/-- The spot as it is seen from a tree that the outermost node of it stands in. -/
def Spot.inside (spot : Spot) (tree : Node) : Spot := { spot with above := spot.above ++ [tree] }

/-- The spot at a position of the tree. -/
def Node.spotAt? (tree : Node) : Position → Option Spot
  | [] => some { node := tree }
  | i :: rest =>
    match tree.children[i]? with
    | some child => (child.spotAt? rest).map (·.inside tree)
    | none => none

theorem Node.spotAt?_cons {tree : Node} {i : Nat} {rest : Position} :
    tree.spotAt? (i :: rest) =
      (tree.children[i]?).bind fun child => (child.spotAt? rest).map (·.inside tree) := by
  rw [Node.spotAt?]
  cases tree.children[i]? <;> rfl

theorem Node.spotAt?_append {tree : Node} {outer inner : Position} :
    tree.spotAt? (outer ++ inner) = (tree.spotAt? outer).bind fun spot =>
      (spot.node.spotAt? inner).map fun part => { part with above := part.above ++ spot.above } := by
  induction outer generalizing tree with
  | nil => simp [Node.spotAt?]
  | cons i rest ih =>
      rw [List.cons_append, Node.spotAt?_cons, Node.spotAt?_cons]
      cases tree.children[i]? with
      | none => rfl
      | some child =>
          rw [Option.bind_some, Option.bind_some, ih]
          cases child.spotAt? rest with
          | none => rfl
          | some spot => simp [Spot.inside, Function.comp_def]

theorem Node.length_above {tree : Node} {position : Position} {spot : Spot}
    (h : tree.spotAt? position = some spot) : spot.above.length = position.length := by
  induction position generalizing tree spot with
  | nil =>
      cases h
      rfl
  | cons i rest ih =>
      rw [Node.spotAt?_cons] at h
      obtain ⟨child, -, h⟩ := Option.bind_eq_some_iff.1 h
      obtain ⟨inner, hinner, rfl⟩ := Option.map_eq_some_iff.1 h
      rw [Spot.inside, List.length_append, List.length_singleton, ih hinner, List.length_cons]

theorem Node.spotAt?_leaf {place : Place} {kind : Kind} {text : String} {position : Position}
    {spot : Spot} (h : (Node.leaf place kind text).spotAt? position = some spot) :
    spot = { node := .leaf place kind text } := by
  cases position with
  | nil => exact (Option.some.inj h).symm
  | cons => cases h

/-! ### Scopes -/

/-- Nodes that declarations do not reach out of, `var` aside. -/
def Kind.isScope : Kind → Bool
  | .program | .statementBlock | .switchBody | .forStatement | .forInStatement | .catchClause
  | .classExpression => true
  | kind => kind.isFunction

/-- Does a declaration stay in the node, which stands in the nodes `above`? A `var` only stays in the
body of a function. -/
def Node.closes (hoisted : Bool) (node : Node) (above : List Node) : Bool :=
  if hoisted then
    node.kind == .classStaticBlock || (node.role == some .body && above.head?.any Node.isFunction)
  else node.kind.isScope

/-- How deep the scope of a declaration lies that stands in the given nodes; the whole tree is the
outermost one. -/
def scopeDepth (hoisted : Bool) : List Node → Nat
  | [] => 0
  | node :: above => if node.closes hoisted above then above.length else scopeDepth hoisted above

/-- The word in front of the variable of a loop: is it `var`? Nothing when the loop declares none. -/
def Node.loopWord? (node : Node) : Option Bool :=
  (node.field? .kind).map (·.isSymbol "var")

/-- How deep the scope lies that a name of the given node is declared for; nothing when the node stands
in no declaring place. -/
def declaredDepth? (node : Node) : List Node → Option Nat
  | [] => none
  | parent :: above =>
    let inRole (role : Role) (depth : Option Nat) : Option Nat :=
      if node.role == some role then depth else none
    match parent.kind with
    | .variableDeclarator =>
      inRole .name (some (scopeDepth (above.head?.any (·.kind == .variableDeclaration)) above))
    | .functionDeclaration | .generatorFunctionDeclaration | .functionSignature
    | .classDeclaration | .abstractClassDeclaration | .enumDeclaration =>
      inRole .name (some (scopeDepth false above))
    -- The name of an expression is known in the expression only.
    | .functionExpression | .generatorFunction | .classExpression => inRole .name (some above.length)
    | .arrowFunction | .catchClause => inRole .parameter (some above.length)
    | .requiredParameter | .optionalParameter =>
      -- Types of functions have parameters, too, and declare nothing.
      inRole .pattern (if (above.drop 1).head?.any Node.isFunction then some (above.length - 2) else none)
    | .forInStatement =>
      inRole .left (parent.loopWord?.map fun hoisted =>
        if hoisted then scopeDepth true above else above.length)
    | .objectPattern | .arrayPattern | .restPattern => declaredDepth? parent above
    | .pairPattern => inRole .value (declaredDepth? parent above)
    | .assignmentPattern | .objectAssignmentPattern => inRole .left (declaredDepth? parent above)
    | _ => none

def Spot.scopeDepth? (spot : Spot) : Option Nat := declaredDepth? spot.node spot.above

/-- Is the node the name? -/
def Node.spells (name : String) : Node → Bool
  | .leaf _ kind text =>
    [Kind.identifier, .shorthandPropertyIdentifierPattern, .typeIdentifier].contains kind && text == name
  | .branch .. => false

/-- The position lies in the scope of what is declared at a declaring place. -/
def Node.Reaches (tree : Node) (declaration position : Position) : Prop :=
  ∃ spot depth, tree.spotAt? declaration = some spot ∧ spot.scopeDepth? = some depth ∧
    declaration.take depth <+: position

/-- The name is declared at the one position, and in force at the other one. -/
def Node.InForce (tree : Node) (name : String) (declaration position : Position) : Prop :=
  (∃ spot, tree.spotAt? declaration = some spot ∧ spot.node.spells name = true) ∧
    tree.Reaches declaration position

instance (tree : Node) (declaration position : Position) :
    Decidable (tree.Reaches declaration position) :=
  decidable_of_iff ((tree.spotAt? declaration).any fun spot => spot.scopeDepth?.any fun depth =>
      (declaration.take depth).isPrefixOf position) <| by
    simp only [Option.any_eq_true, List.isPrefixOf_iff_prefix, Node.Reaches, exists_and_left]

instance (tree : Node) (name : String) (declaration position : Position) :
    Decidable (tree.InForce name declaration position) :=
  decidable_of_iff ((tree.spotAt? declaration).any (fun spot => spot.node.spells name) ∧
      tree.Reaches declaration position) <| by
    rw [Option.any_eq_true, Node.InForce]

/-! ### What scopes depend on -/

/-- The nodes are the same to the scopes of names. -/
structure Node.Alike (node other : Node) : Prop where
  kind : node.kind = other.kind
  role : node.role = other.role
  loopWord : node.loopWord? = other.loopWord?

variable {node other : Node} {above others : List Node}

theorem closes_congr (hoisted : Bool) (h : node.Alike other) (hs : List.Forall₂ Node.Alike above others) :
    node.closes hoisted above = other.closes hoisted others := by
  have hfunction : above.head?.any Node.isFunction = others.head?.any Node.isFunction := by
    cases hs with
    | nil => rfl
    | cons hfirst _ => exact congrArg Kind.isFunction hfirst.kind
  rw [Node.closes, Node.closes, h.kind, h.role, hfunction]

theorem scopeDepth_congr (hoisted : Bool) (hs : List.Forall₂ Node.Alike above others) :
    scopeDepth hoisted above = scopeDepth hoisted others := by
  induction hs with
  | nil => rfl
  | cons h hs ih => rw [scopeDepth, scopeDepth, closes_congr hoisted h hs, hs.length_eq, ih]

theorem scopeDepth_le_length (hoisted : Bool) (above : List Node) :
    scopeDepth hoisted above ≤ above.length := by
  induction above with
  | nil => exact Nat.le_refl 0
  | cons node above ih =>
      rw [scopeDepth, List.length_cons]
      split <;> omega

/-- The scope of a name depends on its role, and on the kinds and roles of the nodes around it. -/
theorem declaredDepth?_congr (hrole : node.role = other.role)
    (hs : List.Forall₂ Node.Alike above others) :
    declaredDepth? node above = declaredDepth? other others := by
  induction hs generalizing node other with
  | nil => rfl
  | @cons parent parent' above others h hs ih =>
      have hhead : ∀ {f : Node → Bool}, (∀ {a b : Node}, a.kind = b.kind → f a = f b) →
          above.head?.any f = others.head?.any f := by
        intro f hf
        cases hs with
        | nil => rfl
        | cons hfirst _ => exact hf hfirst.kind
      have hdrop : (above.drop 1).head?.any Node.isFunction =
          (others.drop 1).head?.any Node.isFunction := by
        cases hs with
        | nil => rfl
        | cons _ hs =>
            cases hs with
            | nil => rfl
            | cons hfirst _ => exact congrArg Kind.isFunction hfirst.kind
      rw [declaredDepth?, declaredDepth?]
      simp only [hrole, h.kind, h.loopWord, hs.length_eq, ih h.role, hdrop,
        fun hoisted => scopeDepth_congr hoisted hs,
        hhead (f := (·.kind == .variableDeclaration)) fun hkind => by rw [hkind]]

end RouteBinder.Source
