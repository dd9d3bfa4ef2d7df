import RouteBinder.Body.Fragment

/-!
# RouteBinder.Body.Dependencies

**What a body needs of its module.** A body that is moved out of its module takes along the
declarations it depends on. `freeDeclarations` finds them: of the top-level declarations that may be
taken, those which declare a name that the body needs, or that one of the chosen ones refers to. They
are looked for in passes over the module, until a pass finds no more. The names that the statements of
the body declare themselves are not looked for in the module.
-/

namespace RouteBinder.Body

open Source

/-- A top-level declaration that a body may take along. -/
structure Candidate where
  statement : Node
  names : List String
  deriving Inhabited

/-- The declarations of a module that declare something, and none of the excluded names. -/
def candidates (program : Node) (excluded : List String) : List Candidate :=
  program.namedChildren.filterMap fun statement =>
    let names := statement.statementNames
    if names.isEmpty || names.any excluded.contains then none else some ⟨statement, names⟩

/-- Is one of the names that the candidate declares needed? -/
def Candidate.isNeeded (needed : List String) (candidate : Candidate) : Bool :=
  candidate.names.any needed.contains

/-- The search for the declarations that a body depends on. -/
structure Search where
  /-- The declarations that nothing has needed so far. -/
  waiting : List Candidate
  /-- The names that are needed so far. -/
  needed : List String
  deriving Inhabited

/-- A pass over declarations, in order. One that declares a needed name is taken along, and the names
that it refers to are needed from then on, also by the declarations behind it. -/
def takeNeeded : List Candidate → List String → Search
  | [], needed => ⟨[], needed⟩
  | candidate :: rest, needed =>
    if candidate.isNeeded needed then
      takeNeeded rest (needed ++ candidate.statement.references)
    else
      let search := takeNeeded rest needed
      { search with waiting := candidate :: search.waiting }

/-- A pass over the declarations that are still waiting. -/
def Search.pass (search : Search) : Search := takeNeeded search.waiting search.needed

/-- Passes are made until one takes nothing along. -/
def Search.settle (search : Search) : Search :=
  let next := search.pass
  if next.waiting.length < search.waiting.length then next.settle else next
termination_by search.waiting.length

/-- The names that a body needs and does not declare. -/
def freeNames (fragment : Fragment) : List String :=
  fragment.references.filter (!fragment.declaredNames.contains ·)

/-- The text of a declaration, without the `export` around it. -/
def declarationText (statement : Node) : String :=
  if statement.kind == .exportStatement then
    ((statement.field? .declaration).map Node.text).getD statement.text
  else statement.text

/-- The declarations that a body depends on, in the order of the module. -/
def dependencies (program : Node) (fragment : Fragment) (excluded : List String) :
    List Candidate :=
  let all := candidates program excluded
  let found := Search.settle ⟨all, freeNames fragment⟩
  all.filter (·.isNeeded found.needed)

/-- The texts of the declarations that a body depends on. -/
def freeDeclarations [Recovery] (program : Node) (body : String) (excluded : List String) :
    List String :=
  (dependencies program (Fragment.parse body) excluded).map fun candidate =>
    declarationText candidate.statement

/-- The body behind the declarations it depends on. -/
def prependDeclarations (body : String) (declarations : List String) : String :=
  if declarations.isEmpty then body else String.intercalate "\n" (declarations ++ [body])

end RouteBinder.Body
