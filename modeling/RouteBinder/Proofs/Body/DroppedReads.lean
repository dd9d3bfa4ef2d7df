import Mathlib.Logic.Relation
import RouteBinder.Body.Replay

/-!
# RouteBinder.Proofs.Body.DroppedReads

**Declarations that are dropped.** In one round, statements are looked at in order, and each is dropped if
it only reads the request for names that no statement uses which stays. What is dropped later does not
change this for the earlier ones, since fewer statements stay then: so at the end of the round nothing that
stays uses a name of what is dropped (`dropped_unusedReads`). A body goes through several rounds, each of
which parses what the one before it left (`reflTransGen_applyUntilStable`).
-/

namespace RouteBinder.Body

open Source Node Text

variable {request body : String} {block statement : Node} {statements : List (Nat × Node)}
  {dropped : List Nat} {place : Nat}

theorem mem_placedStatements : (place, statement) ∈ placedStatements block ↔
    block.children[place]? = some statement ∧ statement.isNamed = true ∧
      statement.kind ≠ .comment := by
  have hplaces : (place, statement) ∈ places block.children ↔
      block.children[place]? = some statement := by
    rw [places, List.mem_map, ← List.mk_mem_zipIdx_iff_getElem?]
    constructor
    · intro h
      obtain ⟨⟨part, i⟩, hzip, heq⟩ := h
      cases heq
      exact hzip
    · exact fun h => ⟨_, h, rfl⟩
  rw [placedStatements, List.mem_filter, hplaces, Bool.and_eq_true, bne_iff_ne]

/-- The statement at a place only reads the request, for names that no statement uses which is not
dropped. -/
structure Dropped (request : String) (statements : List (Nat × Node)) (dropped : List Nat)
    (place : Nat) (statement : Node) : Prop where
  placed : (place, statement) ∈ statements
  isVariableDeclaration : statement.isVariableDeclaration = true
  reads : request ∈ statement.references
  unused : ∀ other ∈ statements, other.1 ≠ place → other.1 ∉ dropped →
    ∀ name ∈ statement.declarationNames, name ∉ other.2.references

theorem Dropped.append (h : Dropped request statements dropped place statement)
    (more : List Nat) : Dropped request statements (dropped ++ more) place statement :=
  { h with
    unused := fun other hother hne hstays =>
      h.unused other hother hne fun hmem => hstays (List.mem_append_left _ hmem) }

/-- All that is dropped is of no use to what stays. -/
def AllDropped (request : String) (statements : List (Nat × Node)) (dropped : List Nat) : Prop :=
  ∀ place ∈ dropped, ∃ statement, Dropped request statements dropped place statement

theorem shareName_eq_false {names others : List String} :
    shareName names others = false ↔ ∀ name ∈ names, name ∉ others := by
  simp [shareName]

/-- The step of a round. -/
theorem allDropped_dropIfUnused (h : AllDropped request statements dropped)
    {candidate : Nat × Node} (hcandidate : candidate ∈ statements) :
    AllDropped request statements (dropIfUnused request statements dropped candidate) := by
  rw [dropIfUnused]
  dsimp only
  split
  · rename_i hreads
    split
    · exact h
    · rename_i hunused
      intro place hplace
      rcases List.mem_append.1 hplace with hplace | hplace
      · obtain ⟨statement, hstatement⟩ := h place hplace
        exact ⟨statement, hstatement.append _⟩
      · obtain rfl := List.mem_singleton.1 hplace
        obtain ⟨hvariable, hreads⟩ := Bool.and_eq_true_iff.1 hreads
        refine ⟨candidate.2, hcandidate, hvariable, List.contains_iff_mem.1 hreads, ?_⟩
        intro other hother hne hstays
        have hkept : dropped.contains other.1 = false := by
          rw [← Bool.not_eq_true, List.contains_iff_mem]
          exact fun hmem => hstays (List.mem_append_left _ hmem)
        rw [← shareName_eq_false]
        cases hshares : shareName candidate.2.declarationNames other.2.references with
        | false => rfl
        | true =>
            refine absurd (List.any_eq_true.2 ⟨other, hother, ?_⟩) hunused
            rw [hkept, hshares, bne_iff_ne.2 hne]
            rfl
  · exact h

/-- What a round drops is of no use to what it leaves. -/
theorem allDropped_unusedReads (request : String) (block : Node) :
    AllDropped request (placedStatements block) (unusedReads request block) := by
  have hround : ∀ (candidates : List (Nat × Node)) (dropped : List Nat),
      (∀ candidate ∈ candidates, candidate ∈ placedStatements block) →
      AllDropped request (placedStatements block) dropped →
      AllDropped request (placedStatements block)
        (candidates.foldl (dropIfUnused request (placedStatements block)) dropped) := by
    intro candidates
    induction candidates with
    | nil => exact fun dropped _ h => h
    | cons candidate candidates ih =>
        intro dropped hcandidates h
        obtain ⟨hcandidate, hrest⟩ := List.forall_mem_cons.1 hcandidates
        exact ih _ hrest (allDropped_dropIfUnused h hcandidate)
  exact hround _ [] (fun candidate h => h) nofun

/-! ### Rounds -/

/-- A block without the statements at some places; the blanks in front of them stay. -/
def textWithout (block : Node) (places : List Nat) : String :=
  block.textWith fun place => if places.contains place then some "" else none

/-- One round: what the body reads from the request for nothing is dropped from it. -/
def DropsReads [Recovery] (request before after : String) : Prop :=
  ∃ places, AllDropped request (placedStatements (Fragment.parse before).block) places ∧
    after = tidy (inside (textWithout (Fragment.parse before).block places))

theorem dropsReads_apply [Recovery] (request body : String) :
    DropsReads request body (apply (dropUnusedRequestReads request) body) :=
  ⟨unusedReads request (Fragment.parse body).block, allDropped_unusedReads _ _, rfl⟩

/-- All rounds. -/
theorem reflTransGen_applyUntilStable [Recovery] (limit : Nat) :
    Relation.ReflTransGen (DropsReads request) body
      (applyUntilStable (dropUnusedRequestReads request) limit body) := by
  induction limit generalizing body with
  | zero => exact .refl
  | succ limit ih =>
      rw [applyUntilStable]
      split
      · exact .refl
      · exact .head (dropsReads_apply request body) ih

end RouteBinder.Body
