import RouteBinder.Grammar.Statement

/-!
# RouteBinder.Grammar.Tree

**From source text to source tree.** `Inner.ofDepth` ties the knot of the grammar: the parsers at
depth `n + 1` use those at depth `n` for nested constructs. Every nested construct takes at least
one character more than the ones inside it have, so a depth above the length of the source (times
the few steps between two characters) never cuts anything off, and `Node.ofSource?` is the whole
grammar as a total function: the tree of the program, or nothing when the source has syntax errors.
-/

namespace RouteBinder.Grammar

open RouteBinder.Source

/-- The parsers for constructs nested at most `depth` deep. -/
def Inner.ofDepth : Nat → Inner
  | 0 => .exhausted
  | depth + 1 =>
    let inner := Inner.ofDepth depth
    { type := typeRule inner
      expression := expressionRule inner
      operation := operationRule inner
      operand := operandRule inner
      target := targetRule inner
      statement := statementRule inner }

/-- The first line of a script, when it names an interpreter. -/
def hashBangLine : Parse Item := do
  let source ← ahead
  Parse.require ("#!".toList.isPrefixOf source)
  take .hashBangLine (source.takeWhile (· != '\n')).length

/-- A whole program. The comments after the last statement belong to it, too. -/
def programRule (inner : Inner) : Parse Node := do
  let line ← Parse.optional hashBangLine
  let statements ← Parse.many inner.statement
  fun cursor =>
    if cursor.rest.isEmpty then
      let trailing := cursor.lead.comments.map fun (gap, comment) =>
        Node.leaf { gap } .comment comment
      some (.branch {} .program ((line.toList ++ statements).flatMap Item.parts ++ trailing), cursor)
    else none

/-- A bound on the steps from a construct to what is nested in it, per character. -/
def stepsPerCharacter : Nat := 6

/-- The tree of a program; nothing when the source has syntax errors. -/
def parse? (source : String) : Option Node :=
  let characters := source.toList
  let inner := Inner.ofDepth (stepsPerCharacter * characters.length + 16)
  (programRule inner (.start characters)).map Prod.fst

end RouteBinder.Grammar
