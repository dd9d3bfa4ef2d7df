import Mathlib.Data.List.Forall2
import Mathlib.Order.Bounds.Basic
import RouteBinder.Body.Dependencies
import RouteBinder.Handler

/-!
# RouteBinder.Proofs.Body.TakenDeclarations

**What a body takes along.** A set of candidates is `Closed` when each candidate belongs to it that declares
a name which the body needs or which a member of the set refers to. The search makes passes in which a
declaration that is taken along makes more names needed at once, so forward references, cycles and
declarations of several names are all settled by further passes. Each pass but the last one takes something
along, so their number is bounded (`passes_le`), and the search ends at the least closed set
(`isLeast_dependencies`).
-/

namespace RouteBinder.Body

open Source

variable {program : Node} {fragment : Fragment} {excluded names needed : List String} {name : String}
  {all waiting : List Candidate} {candidate : Candidate} {chosen : Set Candidate} {search : Search}

/-! ### Closed sets of candidates -/

/-- The body needs the name, or one of the chosen declarations refers to it. -/
def Wanted (names : List String) (chosen : Set Candidate) (name : String) : Prop :=
  name ∈ names ∨ ∃ candidate ∈ chosen, name ∈ candidate.statement.references

/-- The candidates that declare a wanted name are chosen. -/
def Closed (all : List Candidate) (names : List String) (chosen : Set Candidate) : Prop :=
  ∀ candidate ∈ all, (∃ name ∈ candidate.names, Wanted names chosen name) → candidate ∈ chosen

theorem Candidate.isNeeded_iff :
    candidate.isNeeded needed = true ↔ ∃ name ∈ candidate.names, name ∈ needed := by
  simp only [isNeeded, List.any_eq_true, List.contains_eq_mem, decide_eq_true_eq]

/-! ### One pass -/

theorem takeNeeded_of_isNeeded (h : candidate.isNeeded needed = true) :
    takeNeeded (candidate :: waiting) needed =
      takeNeeded waiting (needed ++ candidate.statement.references) := by
  rw [takeNeeded, if_pos h]

theorem takeNeeded_of_not_isNeeded (h : candidate.isNeeded needed ≠ true) :
    takeNeeded (candidate :: waiting) needed =
      { takeNeeded waiting needed with
        waiting := candidate :: (takeNeeded waiting needed).waiting } := by
  rw [takeNeeded, if_neg h]

theorem sublist_takeNeeded (waiting : List Candidate) (needed : List String) :
    (takeNeeded waiting needed).waiting.Sublist waiting := by
  induction waiting generalizing needed with
  | nil => exact .slnil
  | cons candidate rest ih =>
      by_cases h : candidate.isNeeded needed = true
      · rw [takeNeeded_of_isNeeded h]
        exact (ih _).cons _
      · rw [takeNeeded_of_not_isNeeded h]
        exact (ih _).cons_cons _

theorem subset_takeNeeded (waiting : List Candidate) (needed : List String) :
    needed ⊆ (takeNeeded waiting needed).needed := by
  induction waiting generalizing needed with
  | nil => exact fun _ h => h
  | cons candidate rest ih =>
      by_cases h : candidate.isNeeded needed = true
      · rw [takeNeeded_of_isNeeded h]
        exact fun name hname => ih _ (List.mem_append_left _ hname)
      · rw [takeNeeded_of_not_isNeeded h]
        exact ih _

/-- What does not go on waiting was taken along, and what it refers to is needed. -/
theorem mem_waiting_or_taken (h : candidate ∈ waiting) :
    candidate ∈ (takeNeeded waiting needed).waiting ∨
      candidate.statement.references ⊆ (takeNeeded waiting needed).needed := by
  induction waiting generalizing needed with
  | nil => cases h
  | cons first rest ih =>
      by_cases hneeded : first.isNeeded needed = true
      · rw [takeNeeded_of_isNeeded hneeded]
        rcases List.mem_cons.1 h with rfl | h
        · exact Or.inr fun name hname =>
            subset_takeNeeded _ _ (List.mem_append_right _ hname)
        · exact ih h
      · rw [takeNeeded_of_not_isNeeded hneeded]
        rcases List.mem_cons.1 h with rfl | h
        · exact Or.inl List.mem_cons_self
        · exact (ih h).imp_left (List.mem_cons_of_mem _)

/-- A pass makes no name needed that a closed set does not ask for. -/
theorem wanted_of_mem_takeNeeded (hclosed : Closed all names chosen) (hwaiting : waiting ⊆ all)
    (hneeded : ∀ name ∈ needed, Wanted names chosen name) :
    ∀ name ∈ (takeNeeded waiting needed).needed, Wanted names chosen name := by
  induction waiting generalizing needed with
  | nil => exact hneeded
  | cons first rest ih =>
      obtain ⟨hfirst, hrest⟩ := List.cons_subset.1 hwaiting
      by_cases h : first.isNeeded needed = true
      · rw [takeNeeded_of_isNeeded h]
        refine ih hrest fun name hname => (List.mem_append.1 hname).elim (hneeded name) fun hname => ?_
        obtain ⟨declared, hdeclared, hmem⟩ := Candidate.isNeeded_iff.1 h
        exact Or.inr ⟨first, hclosed first hfirst ⟨declared, hdeclared, hneeded _ hmem⟩, hname⟩
      · rw [takeNeeded_of_not_isNeeded h]
        exact ih hrest hneeded

/-- A pass that takes nothing along changes nothing, and nothing that waits is needed. -/
theorem takeNeeded_of_length_le (h : waiting.length ≤ (takeNeeded waiting needed).waiting.length) :
    takeNeeded waiting needed = ⟨waiting, needed⟩ ∧
      ∀ candidate ∈ waiting, candidate.isNeeded needed ≠ true := by
  induction waiting generalizing needed with
  | nil => exact ⟨rfl, nofun⟩
  | cons first rest ih =>
      by_cases hneeded : first.isNeeded needed = true
      · rw [takeNeeded_of_isNeeded hneeded] at h
        exact absurd (h.trans (sublist_takeNeeded rest _).length_le) (Nat.not_succ_le_self _)
      · rw [takeNeeded_of_not_isNeeded hneeded] at h ⊢
        obtain ⟨heq, hrest⟩ := ih (Nat.le_of_succ_le_succ h)
        rw [heq]
        exact ⟨rfl, List.forall_mem_cons.2 ⟨hneeded, hrest⟩⟩

/-! ### All passes -/

/-- How many passes the search makes. -/
def Search.passes (search : Search) : Nat :=
  if search.pass.waiting.length < search.waiting.length then search.pass.passes + 1 else 1
termination_by search.waiting.length

/-- The last pass of a search changes nothing. -/
theorem pass_eq_self (h : ¬ search.pass.waiting.length < search.waiting.length) :
    search.pass = search ∧ ∀ candidate ∈ search.waiting, candidate.isNeeded search.needed ≠ true :=
  takeNeeded_of_length_le (Nat.le_of_not_lt h)

/-- What holds of a search, and still holds after a pass, holds at the end. -/
theorem settle_induction {motive : Search → Prop} (search : Search) (h : motive search)
    (hpass : ∀ search, motive search → motive search.pass) : motive search.settle := by
  fun_induction Search.settle search with
  | case1 search next _ ih => exact ih (hpass _ h)
  | case2 search next _ => exact hpass _ h

theorem iterate_passes (search : Search) : Search.pass^[search.passes] search = search.settle := by
  fun_induction Search.passes search with
  | case1 search hmore ih =>
      rw [Function.iterate_succ_apply, ih]
      conv_rhs => rw [Search.settle]
      exact (if_pos hmore).symm
  | case2 search hdone =>
      rw [Search.settle]
      exact (if_neg hdone).symm

theorem pass_settle (search : Search) : search.settle.pass = search.settle := by
  fun_induction Search.settle search with
  | case1 search next _ ih => exact ih
  | case2 search next hdone =>
      obtain ⟨heq, -⟩ := pass_eq_self hdone
      have hnext : next = search := heq
      rw [hnext]
      exact heq

theorem passes_le (search : Search) : search.passes ≤ search.waiting.length + 1 := by
  fun_induction Search.passes search with
  | case1 search hmore ih => omega
  | case2 search hdone => omega

/-- At the end, nothing that waits is needed. -/
theorem not_isNeeded_of_mem_settle (h : candidate ∈ search.settle.waiting) :
    candidate.isNeeded search.settle.needed ≠ true := by
  have hlast : ¬ search.settle.pass.waiting.length < search.settle.waiting.length := by
    rw [pass_settle]
    exact Nat.lt_irrefl _
  exact (pass_eq_self hlast).2 candidate h

/-- What is known of every state of a search. -/
structure Sound (all : List Candidate) (names : List String) (search : Search) : Prop where
  waiting : search.waiting ⊆ all
  needed : names ⊆ search.needed
  taken : ∀ candidate ∈ all, candidate ∈ search.waiting ∨
    candidate.statement.references ⊆ search.needed
  wanted : ∀ chosen, Closed all names chosen → ∀ name ∈ search.needed, Wanted names chosen name

theorem sound_start (all : List Candidate) (names : List String) : Sound all names ⟨all, names⟩ where
  waiting _ h := h
  needed _ h := h
  taken _ h := Or.inl h
  wanted _ _ _ h := Or.inl h

theorem Sound.pass (h : Sound all names search) : Sound all names search.pass where
  waiting := fun _ hmem => h.waiting ((sublist_takeNeeded _ _).subset hmem)
  needed := fun _ hmem => subset_takeNeeded _ _ (h.needed hmem)
  taken := by
    intro candidate hmem
    rcases h.taken candidate hmem with hwaiting | htaken
    · exact mem_waiting_or_taken hwaiting
    · exact Or.inr fun _ hname => subset_takeNeeded _ _ (htaken hname)
  wanted := fun _ hclosed => wanted_of_mem_takeNeeded hclosed h.waiting (h.wanted _ hclosed)

theorem sound_settle (all : List Candidate) (names : List String) :
    Sound all names (Search.settle ⟨all, names⟩) :=
  settle_induction _ (sound_start all names) fun _ h => h.pass

/-! ### The least closed set -/

/-- The declarations that a body takes along are the least closed set of candidates. -/
theorem isLeast_dependencies (program : Node) (fragment : Fragment) (excluded : List String) :
    IsLeast {chosen | Closed (candidates program excluded) (freeNames fragment) chosen}
      {candidate | candidate ∈ dependencies program fragment excluded} := by
  have hsound := sound_settle (candidates program excluded) (freeNames fragment)
  constructor
  · rintro candidate hmem ⟨name, hname, hwanted⟩
    refine List.mem_filter.2 ⟨hmem, Candidate.isNeeded_iff.2 ⟨name, hname, ?_⟩⟩
    rcases hwanted with hfree | ⟨other, hother, href⟩
    · exact hsound.needed hfree
    · -- What is chosen does not wait any more, so all that it refers to is needed.
      obtain ⟨hall, hneeded⟩ := List.mem_filter.1 hother
      rcases hsound.taken other hall with hwaiting | htaken
      · exact absurd hneeded (not_isNeeded_of_mem_settle hwaiting)
      · exact htaken href
  · intro chosen hclosed candidate hmem
    obtain ⟨hall, hneeded⟩ := List.mem_filter.1 hmem
    obtain ⟨name, hname, hmem⟩ := Candidate.isNeeded_iff.1 hneeded
    exact hclosed candidate hall ⟨name, hname, hsound.wanted chosen hclosed name hmem⟩

/-- The candidates are the statements of the module that declare something, and no excluded name. -/
theorem candidates_eq (program : Node) (excluded : List String) :
    candidates program excluded =
      (program.namedChildren.filter fun statement => decide (statement.statementNames ≠ [] ∧
        ∀ name ∈ statement.statementNames, name ∉ excluded)).map
        fun statement => ⟨statement, statement.statementNames⟩ := by
  rw [candidates, ← List.filterMap_eq_map, List.filterMap_filter]
  congr 1
  funext statement
  have hleft : (statement.statementNames.isEmpty || statement.statementNames.any excluded.contains) =
      !decide (statement.statementNames ≠ [] ∧ ∀ name ∈ statement.statementNames, name ∉ excluded) := by
    rw [Bool.eq_iff_iff]
    simp [or_iff_not_imp_left]
  dsimp only
  rw [hleft]
  cases decide (statement.statementNames ≠ [] ∧ ∀ name ∈ statement.statementNames, name ∉ excluded) <;>
    rfl

/-- The search for the declarations that a body takes along. -/
def Search.start (program : Node) (fragment : Fragment) (excluded : List String) : Search :=
  ⟨candidates program excluded, freeNames fragment⟩

/-! ### The texts that are taken along -/

/-- The text of a statement that declares something. An exported declaration is taken along as the first
part that plays this role in its statement, so without the word in front of it. -/
inductive IsDeclarationText (statement : Node) : String → Prop where
  | plain (hkind : statement.kind ≠ .exportStatement) : IsDeclarationText statement statement.text
  | exported {before after : List Node} {declaration : Node}
      (hkind : statement.kind = .exportStatement)
      (hchildren : statement.children = before ++ declaration :: after)
      (hrole : declaration.role = some .declaration)
      (hfirst : ∀ part ∈ before, part.role ≠ some .declaration) :
      IsDeclarationText statement declaration.text

theorem isDeclarationText_declarationText {statement : Node} (h : statement.statementNames ≠ []) :
    IsDeclarationText statement (declarationText statement) := by
  rw [Node.statementNames] at h
  rw [declarationText]
  split at h
  · rename_i hkind
    rw [if_pos hkind]
    cases hfield : statement.field? .declaration with
    | none =>
        rw [hfield] at h
        exact absurd rfl h
    | some declaration =>
        obtain ⟨hrole, before, after, hchildren, hfirst⟩ := List.find?_eq_some_iff_append.1 hfield
        refine .exported (beq_iff_eq.1 hkind) hchildren (beq_iff_eq.1 hrole) fun part hpart => ?_
        exact bne_iff_ne.1 (hfirst part hpart)
  · rename_i hkind
    rw [if_neg hkind]
    exact .plain (mt beq_iff_eq.2 hkind)

theorem statementNames_ne_nil_of_mem_candidates (h : candidate ∈ candidates program excluded) :
    candidate.statement.statementNames ≠ [] := by
  rw [candidates_eq, List.mem_map] at h
  obtain ⟨statement, hstatement, rfl⟩ := h
  exact (decide_eq_true_iff.1 (List.mem_filter.1 hstatement).2).1

open scoped Classical in
/-- Of the declarations of a module, a body takes along the texts of the least closed set, in the order of
the module. The search has found it when it has made one pass more than there are candidates. This holds for
every body, whatever the parser recovers of one that is not well-formed. -/
theorem freeDeclarations_eq_leastClosed [Recovery] (program : Node) (body : String)
    (excluded : List String) :
    candidates program excluded =
        (program.namedChildren.filter fun statement => decide (statement.statementNames ≠ [] ∧
          ∀ name ∈ statement.statementNames, name ∉ excluded)).map
          (fun statement => ⟨statement, statement.statementNames⟩) ∧
      (Search.start program (Fragment.parse body) excluded).passes ≤
        (candidates program excluded).length + 1 ∧
      Search.pass^[(Search.start program (Fragment.parse body) excluded).passes]
          (Search.start program (Fragment.parse body) excluded) =
        (Search.start program (Fragment.parse body) excluded).settle ∧
      ∃ chosen, IsLeast {chosen |
          Closed (candidates program excluded) (freeNames (Fragment.parse body)) chosen} chosen ∧
        (∀ candidate ∈ candidates program excluded, candidate ∈ chosen ↔ candidate.isNeeded
          (Search.start program (Fragment.parse body) excluded).settle.needed = true) ∧
        List.Forall₂ (fun candidate text => IsDeclarationText candidate.statement text)
          ((candidates program excluded).filter (· ∈ chosen))
          (freeDeclarations program body excluded) := by
  obtain ⟨chosen, hleast, hmem⟩ : ∃ chosen, IsLeast {chosen |
      Closed (candidates program excluded) (freeNames (Fragment.parse body)) chosen} chosen ∧
      ∀ candidate ∈ candidates program excluded, candidate ∈ chosen ↔ candidate.isNeeded
        (Search.start program (Fragment.parse body) excluded).settle.needed = true :=
    ⟨_, isLeast_dependencies program (Fragment.parse body) excluded,
      fun candidate hcandidate => List.mem_filter.trans (and_iff_right hcandidate)⟩
  have hfilter : (candidates program excluded).filter (· ∈ chosen) =
      dependencies program (Fragment.parse body) excluded :=
    List.filter_congr fun candidate hcandidate =>
      Bool.eq_iff_iff.2 (decide_eq_true_iff.trans (hmem candidate hcandidate))
  refine ⟨candidates_eq program excluded, passes_le _, iterate_passes _, chosen, hleast, hmem, ?_⟩
  rw [hfilter, freeDeclarations, List.forall₂_map_right_iff, List.forall₂_same]
  exact fun candidate hcandidate => isDeclarationText_declarationText
    (statementNames_ne_nil_of_mem_candidates (List.mem_of_mem_filter hcandidate))

attribute [local instance] Recovery.verbatim

/-- Two functions that refer to each other, one of them exported, the other one declared beside a constant. -/
def mutualModule : String :=
  "export const a = () => b;\nconst b = () => a, c = 1;\nconst d = c;\n"

theorem freeDeclarations_mutualModule :
    (Grammar.parse? mutualModule).any (fun program => freeDeclarations program "return c;" verbs ==
        ["const a = () => b;", "const b = () => a, c = 1;"]) = true := by
  decide +kernel

open scoped Classical in
/-- A body that needs the constant takes both functions along, the exported one without the word in front of
it, and leaves what refers to the constant. -/
theorem leastClosed_mutualModule : ∃ program, Grammar.parse? mutualModule = some program ∧
    ∃ chosen, IsLeast {chosen |
        Closed (candidates program verbs) (freeNames (Fragment.parse "return c;")) chosen} chosen ∧
      List.Forall₂ (fun candidate text => IsDeclarationText candidate.statement text)
        ((candidates program verbs).filter (· ∈ chosen))
        ["const a = () => b;", "const b = () => a, c = 1;"] := by
  obtain ⟨program, hprogram, hfree⟩ := (Option.any_eq_true _ _).1 freeDeclarations_mutualModule
  obtain ⟨-, -, -, chosen, hleast, -, htexts⟩ :=
    freeDeclarations_eq_leastClosed program "return c;" verbs
  rw [beq_iff_eq.1 hfree] at htexts
  exact ⟨program, hprogram, chosen, hleast, htexts⟩

end RouteBinder.Body
