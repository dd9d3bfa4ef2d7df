import RouteBinder.Proofs.Body.DroppedReads
import RouteBinder.Proofs.Body.Fragments

/-!
# RouteBinder.Proofs.Body.DroppedDeclarations

**What one round drops.** The statements are looked at in order, and each decision rests on what was dropped
before. Seen from the end of the round, a statement is dropped exactly if it is a variable declaration that
reads the request, and every other statement leaves its names alone or stands in front of it and is dropped
itself (`mem_unusedReads_iff`). So nothing that stays refers to a name of what is dropped.

Nothing that stays uses such a name, either, if it gives none of them a new value through a shorthand in the
target of an assignment: `({ a } = f())` assigns to `a`, and its `a` does not count as a reference
(`dropped_names_unused_iff`).
-/

namespace RouteBinder.Source.Node

/-! ### Assignments through shorthands -/

/-- A child of a construct of the kind is a target of an assignment, where `assigned` says whether the
construct itself is one. A loop without a word in front of its variable assigns to it. -/
def isTarget (kind : Kind) (children : List Node) (assigned : Bool) (child : Node) : Bool :=
  match kind with
  | .assignmentExpression => child.role == some .left
  | .forInStatement => child.role == some .left && children.all (·.role != some .kind)
  | .objectPattern | .arrayPattern | .restPattern => assigned
  | .pairPattern => assigned && child.role == some .value
  | .assignmentPattern | .objectAssignmentPattern => assigned && child.role == some .left
  | _ => false

mutual
/-- The names that get new values through shorthands in the targets of assignments, in a node that is
itself such a target or not. -/
def assignedShorthands (assigned : Bool) : Node → List String
  | .leaf _ kind text =>
    if assigned && kind == .shorthandPropertyIdentifierPattern then [text] else []
  | .branch _ kind children => assignedShorthandsOfParts (isTarget kind children assigned) children

def assignedShorthandsOfParts (assigned : Node → Bool) : List Node → List String
  | [] => []
  | part :: rest => assignedShorthands (assigned part) part ++ assignedShorthandsOfParts assigned rest
end

/-- The names that a statement uses: those that it refers to, and those that it gives new values through
shorthands. -/
def usedNames (statement : Node) : List String :=
  statement.references ++ statement.assignedShorthands false

end RouteBinder.Source.Node

namespace RouteBinder.Body

open Source Node Text

variable {request body : String} {block statement : Node} {statements done rest : List (Nat × Node)}
  {dropped : List Nat} {place : Nat} {candidate : Nat × Node}

/-! ### The decisions of a round -/

/-- The statement at a place only reads the request, for names that are used at most by statements that are
dropped before it. -/
structure Unneeded (request : String) (statements : List (Nat × Node)) (dropped : List Nat)
    (place : Nat) (statement : Node) : Prop where
  isVariableDeclaration : statement.isVariableDeclaration = true
  reads : request ∈ statement.references
  unused : ∀ other ∈ statements, other.1 ≠ place → (other.1 ∈ dropped ∧ other.1 < place) ∨
    ∀ name ∈ statement.declarationNames, name ∉ other.2.references

/-- Among the statements that were looked at, those are dropped that are not needed. -/
def Settles (request : String) (statements done : List (Nat × Node)) (dropped : List Nat) : Prop :=
  ∀ place, place ∈ dropped ↔ ∃ statement, (place, statement) ∈ done ∧
    Unneeded request statements dropped place statement

theorem mem_dropIfUnused_iff : place ∈ dropIfUnused request statements dropped candidate ↔
    place ∈ dropped ∨ place = candidate.1 ∧ candidate.2.isVariableDeclaration = true ∧
      request ∈ candidate.2.references ∧ ∀ other ∈ statements, other.1 ≠ candidate.1 →
        other.1 ∈ dropped ∨ ∀ name ∈ candidate.2.declarationNames, name ∉ other.2.references := by
  have hused : (statements.any fun other => other.1 != candidate.1 && !dropped.contains other.1 &&
      shareName candidate.2.declarationNames other.2.references) = false ↔
      ∀ other ∈ statements, other.1 ≠ candidate.1 →
        other.1 ∈ dropped ∨ ∀ name ∈ candidate.2.declarationNames, name ∉ other.2.references := by
    rw [List.any_eq_false]
    refine forall₂_congr fun other _ => ?_
    rw [← shareName_eq_false]
    cases shareName candidate.2.declarationNames other.2.references <;> simp
  rw [dropIfUnused]
  dsimp only
  split
  · rename_i hreads
    rw [Bool.and_eq_true, List.contains_iff_mem] at hreads
    rw [← hused]
    split
    · rename_i hany
      refine ⟨Or.inl, ?_⟩
      rintro (hplace | ⟨-, -, -, hnone⟩)
      · exact hplace
      · exact absurd (hany.symm.trans hnone) Bool.true_eq_false.mp
    · rename_i hany
      rw [List.mem_append, List.mem_singleton]
      exact or_congr_right
        ⟨fun heq => ⟨heq, hreads.1, hreads.2, Bool.not_eq_true _ ▸ hany⟩, And.left⟩
  · rename_i hreads
    rw [Bool.and_eq_true, List.contains_iff_mem, not_and] at hreads
    refine ⟨Or.inl, ?_⟩
    rintro (hplace | ⟨-, hvariable, hrequest, -⟩)
    · exact hplace
    · exact absurd hrequest (hreads hvariable)

theorem Unneeded.mono {more : List Nat} (h : Unneeded request statements dropped place statement)
    (hsubset : ∀ other ∈ dropped, other < place → other ∈ more) :
    Unneeded request statements more place statement :=
  { h with
    unused := fun other hother hne => (h.unused other hother hne).imp_left fun hdropped =>
      ⟨hsubset other.1 hdropped.1 hdropped.2, hdropped.2⟩ }

/-- The step of a round. -/
theorem settles_dropIfUnused (h : Settles request statements done dropped)
    (hfront : ∀ earlier ∈ done, earlier.1 < candidate.1) :
    Settles request statements (done ++ [candidate])
      (dropIfUnused request statements dropped candidate) := by
  have hlt : ∀ other ∈ dropped, other < candidate.1 := by
    intro other hother
    obtain ⟨earlier, hearlier, -⟩ := (h other).1 hother
    exact hfront _ hearlier
  have hkept : ∀ other ∈ dropped, other ∈ dropIfUnused request statements dropped candidate :=
    fun other hother => mem_dropIfUnused_iff.2 (.inl hother)
  -- what is dropped in this step stands behind everything that was dropped before
  have hearlier : ∀ other ∈ dropIfUnused request statements dropped candidate,
      other < candidate.1 → other ∈ dropped := by
    intro other hother hbefore
    rcases mem_dropIfUnused_iff.1 hother with hother | ⟨rfl, -⟩
    · exact hother
    · exact absurd hbefore (Nat.lt_irrefl _)
  intro place
  constructor
  · intro hplace
    rcases mem_dropIfUnused_iff.1 hplace with hplace | ⟨rfl, hvariable, hreads, hunused⟩
    · obtain ⟨statement, hstatement, hunneeded⟩ := (h place).1 hplace
      exact ⟨statement, List.mem_append_left _ hstatement,
        hunneeded.mono fun other hother _ => hkept other hother⟩
    · refine ⟨candidate.2, List.mem_append_right _ (List.mem_singleton_self _), hvariable, hreads, ?_⟩
      exact fun other hother hne => (hunused other hother hne).imp_left fun hdropped =>
        ⟨hkept _ hdropped, hlt _ hdropped⟩
  · rintro ⟨statement, hstatement, hunneeded⟩
    rcases List.mem_append.1 hstatement with hstatement | hstatement
    · have hbefore := hfront _ hstatement
      refine hkept place ((h place).2 ⟨statement, hstatement, hunneeded.mono ?_⟩)
      exact fun other hother hlt => hearlier other hother (hlt.trans hbefore)
    · obtain rfl := List.mem_singleton.1 hstatement
      refine mem_dropIfUnused_iff.2 (.inr ⟨rfl, hunneeded.isVariableDeclaration, hunneeded.reads, ?_⟩)
      exact fun other hother hne => (hunneeded.unused other hother hne).imp_left fun hdropped =>
        hearlier _ hdropped.1 hdropped.2

theorem pairwise_placedStatements (block : Node) :
    (placedStatements block).Pairwise fun first second => first.1 < second.1 := by
  have hplaces : (places block.children).map Prod.fst = List.range' 0 block.children.length := by
    rw [places, List.map_map, ← List.zipIdx_map_snd]
    rfl
  refine List.Pairwise.filter _ (List.pairwise_map.1 ?_)
  rw [hplaces]
  exact List.pairwise_lt_range'

/-- A round drops what is not needed. -/
theorem settles_unusedReads (request : String) (block : Node) :
    Settles request (placedStatements block) (placedStatements block) (unusedReads request block) := by
  have hround : ∀ (rest done : List (Nat × Node)) (dropped : List Nat),
      (done ++ rest).Pairwise (fun first second => first.1 < second.1) →
      Settles request (placedStatements block) done dropped →
      Settles request (placedStatements block) (done ++ rest)
        (rest.foldl (dropIfUnused request (placedStatements block)) dropped) := by
    intro rest
    induction rest with
    | nil =>
        intro done dropped _ h
        rw [List.append_nil]
        exact h
    | cons candidate rest ih =>
        intro done dropped hpairwise h
        rw [List.append_cons] at hpairwise ⊢
        refine ih _ _ hpairwise (settles_dropIfUnused h fun earlier hearlier => ?_)
        have hfront := (List.pairwise_append.1 hpairwise).1
        exact (List.pairwise_append.1 hfront).2.2 earlier hearlier candidate (List.mem_singleton_self _)
  refine hround _ [] [] (pairwise_placedStatements block) fun place => ?_
  simp

theorem mem_unusedReads_iff : place ∈ unusedReads request block ↔
    ∃ statement, (place, statement) ∈ placedStatements block ∧
      Unneeded request (placedStatements block) (unusedReads request block) place statement :=
  settles_unusedReads request block place

/-! ### What is left -/

/-- The names that dropped statements declare are not among the names of statements that stay. -/
def NoneLeft (namesOf : Node → List String) (request : String) (block : Node) : Prop :=
  ∀ gone ∈ placedStatements block, gone.1 ∈ unusedReads request block →
    ∀ kept ∈ placedStatements block, kept.1 ∉ unusedReads request block →
      ∀ name ∈ gone.2.declarationNames, name ∉ namesOf kept.2

instance (namesOf : Node → List String) (request : String) (block : Node) :
    Decidable (NoneLeft namesOf request block) :=
  inferInstanceAs (Decidable (∀ gone ∈ placedStatements block, gone.1 ∈ unusedReads request block →
    ∀ kept ∈ placedStatements block, kept.1 ∉ unusedReads request block →
      ∀ name ∈ gone.2.declarationNames, name ∉ namesOf kept.2))

theorem eq_of_mem_placedStatements {other : Node} (h : (place, statement) ∈ placedStatements block)
    (hother : (place, other) ∈ placedStatements block) : statement = other :=
  Option.some.inj ((mem_placedStatements.1 h).1.symm.trans (mem_placedStatements.1 hother).1)

/-- Nothing that stays refers to a name of what is dropped. -/
theorem noneLeft_references (request : String) (block : Node) :
    NoneLeft Node.references request block := by
  intro gone hgone hdropped kept hkept hstays
  obtain ⟨statement, hstatement, hunneeded⟩ := mem_unusedReads_iff.1 hdropped
  obtain rfl := eq_of_mem_placedStatements hgone hstatement
  have hne : kept.1 ≠ gone.1 := fun heq => hstays (heq ▸ hdropped)
  rcases hunneeded.unused kept hkept hne with hearlier | hnames
  · exact absurd hearlier.1 hstays
  · exact hnames

theorem noneLeft_usedNames_iff : NoneLeft Node.usedNames request block ↔
    NoneLeft (assignedShorthands false) request block := by
  constructor
  · intro hused gone hgone hdropped kept hkept hstays name hname hassigned
    exact hused gone hgone hdropped kept hkept hstays name hname (List.mem_append_right _ hassigned)
  · intro hassigned gone hgone hdropped kept hkept hstays name hname hused
    rcases List.mem_append.1 hused with hused | hused
    · exact noneLeft_references request block gone hgone hdropped kept hkept hstays name hname hused
    · exact hassigned gone hgone hdropped kept hkept hstays name hname hused

/-- A block with an empty text in place of what is dropped. -/
theorem dropUnusedRequestReads_eq {fragment : Fragment} (h : Fragment.parse? body = some fragment) :
    dropUnusedRequestReads request fragment = assemble (fragment.block.children.mapIdx fun place part =>
      (part.gap, if place ∈ unusedReads request fragment.block then "" else part.text)) := by
  obtain ⟨-, opening, parts, closing, hchildren, -⟩ := Fragment.inBraces_of_parse? h
  have hreplaced : ∀ place (part : Node),
      (if (unusedReads request fragment.block).contains place then some "" else none).getD part.text =
        if place ∈ unusedReads request fragment.block then "" else part.text := by
    intro place part
    simp only [List.contains_iff_mem]
    split <;> rfl
  rw [dropUnusedRequestReads]
  cases hblock : fragment.block with
  | leaf =>
      rw [hblock] at hchildren
      cases hchildren
  | branch =>
      simp only [hblock] at hreplaced
      simp only [textWith_branch, hreplaced]
      rfl

/-- For every body and every name of the request, with what one round drops:

* it is a variable declaration of the body that reads the request;
* nothing that stays refers to a name of it;
* nothing that stays uses such a name, if and only if none of the statements that stay gives it a new value
  through a shorthand in the target of an assignment;
* every variable declaration that reads the request is dropped, if no other statement refers to its names;
* all other statements keep their texts. -/
theorem dropped_names_unused_iff {fragment : Fragment} (h : Fragment.parse? body = some fragment) :
    (∀ place ∈ unusedReads request fragment.block, ∃ statement,
      (place, statement) ∈ placedStatements fragment.block ∧ statement.isVariableDeclaration = true ∧
        request ∈ statement.references) ∧
    NoneLeft Node.references request fragment.block ∧
    (NoneLeft Node.usedNames request fragment.block ↔
      NoneLeft (assignedShorthands false) request fragment.block) ∧
    (∀ candidate ∈ placedStatements fragment.block, candidate.2.isVariableDeclaration = true →
      request ∈ candidate.2.references →
      (∀ other ∈ placedStatements fragment.block, other.1 ≠ candidate.1 →
        ∀ name ∈ candidate.2.declarationNames, name ∉ other.2.references) →
      candidate.1 ∈ unusedReads request fragment.block) ∧
    dropUnusedRequestReads request fragment = assemble (fragment.block.children.mapIdx fun place part =>
      (part.gap, if place ∈ unusedReads request fragment.block then "" else part.text)) := by
  refine ⟨fun place hplace => ?_, noneLeft_references request fragment.block,
    noneLeft_usedNames_iff, ?_, dropUnusedRequestReads_eq h⟩
  · obtain ⟨statement, hstatement, hunneeded⟩ := mem_unusedReads_iff.1 hplace
    exact ⟨statement, hstatement, hunneeded.isVariableDeclaration, hunneeded.reads⟩
  · intro candidate hcandidate hvariable hreads hunused
    refine mem_unusedReads_iff.2 ⟨candidate.2, hcandidate, hvariable, hreads, ?_⟩
    exact fun other hother hne => .inr (hunused other hother hne)

/-! ### A name that is assigned to -/

/-- A body that reads the request into a variable, and then assigns to the target. -/
def assigning (target : String) : String :=
  "let { a } = req.query;\n(" ++ target ++ " = f());"

/-- The first statement is dropped, and the others assign to its name through a shorthand or not. -/
def dropsFirst (unassigned : Bool) (fragment : Fragment) : Bool :=
  unusedReads "req" fragment.block = [1] &&
    decide (NoneLeft (assignedShorthands false) "req" fragment.block) == unassigned

theorem exists_of_dropsFirst {unassigned : Bool}
    (h : (Fragment.parse? body).any (dropsFirst unassigned) = true) :
    ∃ fragment, Fragment.parse? body = some fragment ∧ unusedReads "req" fragment.block = [1] ∧
      (NoneLeft (assignedShorthands false) "req" fragment.block ↔ unassigned = true) := by
  obtain ⟨fragment, hparse, h⟩ := (Option.any_eq_true _ _).1 h
  simp only [dropsFirst, Bool.and_eq_true, decide_eq_true_eq, beq_iff_eq] at h
  exact ⟨fragment, hparse, h.1, by rw [← h.2, decide_eq_true_iff]⟩

set_option maxRecDepth 1000000 in
/-- What is assigned to is a property of something else. -/
theorem dropped_names_unused_property : ∃ fragment,
    Fragment.parse? (assigning "b.a") = some fragment ∧ unusedReads "req" fragment.block = [1] ∧
      NoneLeft Node.usedNames "req" fragment.block := by
  obtain ⟨fragment, hparse, hdropped, hassigned⟩ :=
    @exists_of_dropsFirst (assigning "b.a") true (by decide +kernel)
  obtain ⟨-, -, hused, -⟩ := @dropped_names_unused_iff "req" _ _ hparse
  exact ⟨fragment, hparse, hdropped, hused.2 (hassigned.2 rfl)⟩

set_option maxRecDepth 1000000 in
/-- The variable is assigned to in a statement that stays. -/
theorem dropped_name_assigned : ∃ fragment,
    Fragment.parse? (assigning "\x7b a \x7d") = some fragment ∧
      unusedReads "req" fragment.block = [1] ∧ ¬ NoneLeft Node.usedNames "req" fragment.block := by
  obtain ⟨fragment, hparse, hdropped, hassigned⟩ :=
    @exists_of_dropsFirst (assigning "\x7b a \x7d") false (by decide +kernel)
  refine ⟨fragment, hparse, hdropped, fun hused => ?_⟩
  cases hassigned.1 (noneLeft_usedNames_iff.1 hused)

end RouteBinder.Body
