import RouteBinder.Grammar.Tree
import RouteBinder.Source.Names
import RouteBinder.Source.Splice
import RouteBinder.Text.Lines

/-!
# RouteBinder.Body.Fragment

**Bodies as syntax.** The body of a handler is a text of statements. To be looked at, it is parsed as
the block of a function; to be changed, a `Rule` makes a new text of that block, from which the braces
are taken off again. Rules are applied one after the other, and each sees the syntax of what the one
before it made.

That need not be well-formed any more: a response around an object may be the whole body of an arrow
function, and the object alone is a block in its place. Rules are applied and questions are answered all
the same, on what the parser recovers of such a body (`Recovery`).
-/

namespace RouteBinder.Body

open Source Text

/-- A parsed body. -/
structure Fragment where
  /-- The block that the statements stand in, braces included. -/
  block : Node
  deriving Inhabited

namespace Fragment

/-- The source in which a body is parsed. -/
def wrapped (body : String) : String :=
  "async function __handler__() \x7b\n" ++ body ++ "\n\x7d\n"

/-- The syntax of a well-formed body. -/
def parse? (body : String) : Option Fragment := do
  let program ← Grammar.parse? (wrapped body)
  let function ← program.firstNamed?
  let block ← function.field? .body
  return ⟨block⟩

end Fragment

/-- What the parser takes a body for that is not well-formed. It finds the braces that the body is wrapped
in, with whatever it makes of the text between them. The recovery is inferred, so that all that is done with
bodies carries it without a parameter. -/
class Recovery where
  recovered : String → Fragment
  inBraces_recovered : ∀ body, (recovered body).block.InBraces

/-- The recovery that takes nothing of a body apart. -/
abbrev Recovery.verbatim : Recovery where
  recovered body :=
    ⟨.branch {} .statementBlock
      [.leaf {} .symbol "\x7b", .leaf { gap := "\n" } .error body,
        .leaf { gap := "\n" } .symbol "\x7d"]⟩
  inBraces_recovered _ := ⟨rfl, _, [_], _, rfl, rfl, rfl⟩

namespace Fragment

/-- The syntax of a body. -/
def parse [Recovery] (body : String) : Fragment := (parse? body).getD (Recovery.recovered body)

theorem parse_of_parse? [Recovery] {body : String} {fragment : Fragment}
    (h : parse? body = some fragment) : parse body = fragment := by
  rw [parse, h, Option.getD_some]

/-- The statements of the body. -/
def statements (fragment : Fragment) : List Node := fragment.block.namedChildren

/-- The names that the body refers to. -/
def references (fragment : Fragment) : List String := fragment.block.references

/-- The names that the statements of the body declare. -/
def declaredNames (fragment : Fragment) : List String :=
  fragment.statements.flatMap Node.statementNames

end Fragment

/-! ### Rules -/

/-- A way to make a new block of a body; the text includes the braces. -/
abbrev Rule := Fragment → String

/-- Replaces constructs wherever they stand in the body. -/
def Rule.ofSubstitution (substitution : Substitution) : Rule :=
  fun fragment => fragment.block.splice substitution

/-- Replaces statements of the body, given with their places among the parts of the block. -/
def Rule.ofStatements (replace? : Fragment → Nat → Node → Option String) : Rule :=
  fun fragment =>
    fragment.block.textWith fun place =>
      (fragment.block.children[place]?).bind (replace? fragment place)

section

variable [Recovery]

/-- The body that a rule makes. -/
def apply (rule : Rule) (body : String) : String :=
  tidy (Text.inside (rule (Fragment.parse body)))

/-- The body after several rules, applied in order. -/
def applyAll (rules : List Rule) (body : String) : String :=
  rules.foldl (fun body rule => apply rule body) body

/-- Applies a rule until it changes nothing more, at most `limit` times. -/
def applyUntilStable (rule : Rule) : Nat → String → String
  | 0, body => body
  | limit + 1, body =>
    let next := apply rule body
    if next == body then body else applyUntilStable rule limit next

/-- How often a rule is applied to reach a stable body. -/
def roundsUntilStable : Nat := 8

/-! ### Questions about bodies -/

/-- The names that a body refers to. -/
def references (body : String) : List String := (Fragment.parse body).references

/-- Does a variable declaration of the body bind the name? -/
def declaresName (body name : String) : Bool := (Fragment.parse body).block.declaresVariable name

end

end RouteBinder.Body
