import Mathlib.Data.List.Flatten
import Mathlib.Data.List.Nodup
import Mathlib.Logic.Relation
import RouteBinder.Proofs.Body.TakenDeclarations

/-!
# RouteBinder.Proofs.Body.HoistedNames

**Names that are declared in front of a body.** A body takes a declaration along when a chain of references
leads to it from a name that the body needs (`mem_dependencies_iff`). The names that the body declares itself
do not begin such a chain. They are not left out of its later steps: a declaration of the module that refers
to one of these names takes the module's declaration of it along, and then the name is declared twice in the
body that comes out. `nodup_hoistedNames_iff` says when this happens.
-/

namespace RouteBinder.Body

open Source

variable {program : Node} {fragment : Fragment} {excluded names : List String} {name : String}
  {all : List Candidate} {candidate : Candidate}

/-! ### Chains of references -/

/-- The first declaration refers to a name that the second one declares. -/
def Leads (all : List Candidate) (candidate next : Candidate) : Prop :=
  next ∈ all ∧ ∃ name ∈ next.names, name ∈ candidate.statement.references

/-- The candidate declares one of the names. -/
def Declares (all : List Candidate) (names : List String) (candidate : Candidate) : Prop :=
  candidate ∈ all ∧ ∃ name ∈ candidate.names, name ∈ names

/-- References lead from one of the names to the candidate. -/
def Reached (all : List Candidate) (names : List String) (candidate : Candidate) : Prop :=
  ∃ first, Declares all names first ∧ Relation.ReflTransGen (Leads all) first candidate

theorem closed_reached (all : List Candidate) (names : List String) :
    Closed all names {candidate | Reached all names candidate} := by
  rintro candidate hmem ⟨name, hname, hfree | ⟨other, ⟨first, hfirst, hchain⟩, href⟩⟩
  · exact ⟨candidate, ⟨hmem, name, hname, hfree⟩, .refl⟩
  · exact ⟨first, hfirst, hchain.tail ⟨hmem, name, hname, href⟩⟩

theorem mem_of_reached {chosen : Set Candidate} (hclosed : Closed all names chosen)
    (h : Reached all names candidate) : candidate ∈ chosen := by
  obtain ⟨first, ⟨hmem, name, hname, hfree⟩, hchain⟩ := h
  induction hchain with
  | refl => exact hclosed first hmem ⟨name, hname, Or.inl hfree⟩
  | @tail other next _ hleads ih =>
      obtain ⟨hnext, declared, hdeclared, href⟩ := hleads
      exact hclosed next hnext ⟨declared, hdeclared, Or.inr ⟨other, ih, href⟩⟩

/-- A body takes along what references lead to from the names that it needs. -/
theorem mem_dependencies_iff : candidate ∈ dependencies program fragment excluded ↔
    Reached (candidates program excluded) (freeNames fragment) candidate := by
  obtain ⟨hclosed, hleast⟩ := isLeast_dependencies program fragment excluded
  exact ⟨fun h => hleast (closed_reached _ _) h, mem_of_reached hclosed⟩

/-! ### Names that are declared twice -/

/-- The ways in which a body comes to stand behind a declaration of one of its own names. -/
inductive Redeclares (program : Node) (fragment : Fragment) (excluded : List String) (name : String) :
    Prop where
  /-- The declaration declares a name, too, that the body needs. -/
  | beside {candidate : Candidate} {other : String} (hmem : candidate ∈ candidates program excluded)
      (hname : name ∈ candidate.names) (hother : other ∈ candidate.names)
      (hfree : other ∈ freeNames fragment)
  /-- A declaration that is taken along refers to the declaration. -/
  | referred {candidate next : Candidate}
      (hreached : Reached (candidates program excluded) (freeNames fragment) candidate)
      (hleads : Leads (candidates program excluded) candidate next) (hname : name ∈ next.names)

theorem redeclares_iff : Redeclares program fragment excluded name ↔
    ∃ candidate ∈ dependencies program fragment excluded, name ∈ candidate.names := by
  constructor
  · rintro (⟨hmem, hname, hother, hfree⟩ | ⟨⟨first, hfirst, hchain⟩, hleads, hname⟩)
    · exact ⟨_, mem_dependencies_iff.2 ⟨_, ⟨hmem, _, hother, hfree⟩, .refl⟩, hname⟩
    · exact ⟨_, mem_dependencies_iff.2 ⟨first, hfirst, hchain.tail hleads⟩, hname⟩
  · rintro ⟨candidate, hmem, hname⟩
    obtain ⟨first, hfirst, hchain⟩ := mem_dependencies_iff.1 hmem
    rcases Relation.ReflTransGen.cases_tail hchain with rfl | ⟨other, hother, hleads⟩
    · obtain ⟨hall, other, hother, hfree⟩ := hfirst
      exact .beside hall hname hother hfree
    · exact .referred ⟨first, hfirst, hother⟩ hleads hname

/-- The names that are declared in front of a body and in it. -/
def hoistedNames (program : Node) (fragment : Fragment) (excluded : List String) : List String :=
  (dependencies program fragment excluded).flatMap (·.names) ++ fragment.declaredNames

/-- Where neither the module nor the body declares a name twice, the body with its declarations does not
exactly when no declaration of one of its own names is taken along, beside a needed name or by reference. -/
theorem nodup_hoistedNames_iff [Recovery] {body : String} (hparse : Fragment.parse? body = some fragment)
    (hmodule : ((candidates program excluded).flatMap (·.names)).Nodup)
    (hbody : fragment.declaredNames.Nodup) :
    freeDeclarations program body excluded =
        (dependencies program fragment excluded).map (fun candidate =>
          declarationText candidate.statement) ∧
      (∀ name ∈ fragment.declaredNames,
        (∃ candidate ∈ dependencies program fragment excluded, name ∈ candidate.names) ↔
          Redeclares program fragment excluded name) ∧
      ((hoistedNames program fragment excluded).Nodup ↔
        ∀ name ∈ fragment.declaredNames, ¬ Redeclares program fragment excluded name) := by
  refine ⟨by rw [freeDeclarations, Fragment.parse_of_parse? hparse], fun name _ => redeclares_iff.symm, ?_⟩
  have htaken : ((dependencies program fragment excluded).flatMap (·.names)).Nodup :=
    hmodule.sublist (List.filter_sublist.flatMap _)
  rw [hoistedNames, List.nodup_append]
  constructor
  · rintro ⟨-, -, hdisjoint⟩ name hown hredeclares
    obtain ⟨candidate, hmem, hname⟩ := redeclares_iff.1 hredeclares
    exact hdisjoint name (List.mem_flatMap.2 ⟨candidate, hmem, hname⟩) name hown rfl
  · refine fun hnone => ⟨htaken, hbody, ?_⟩
    rintro name hhoisted _ hown rfl
    obtain ⟨candidate, hmem, hname⟩ := List.mem_flatMap.1 hhoisted
    exact hnone name hown (redeclares_iff.2 ⟨candidate, hmem, hname⟩)

/-! ### Names that the module declares, too -/

/-- A module with a constant, and another one that is computed from it. -/
def pricesModule : String := "const rate = 2;\nconst price = rate * 3;\n"

/-- Names are declared once in the module and once in the body. -/
def declaresOnce (program : Node) (fragment : Fragment) : Bool :=
  decide ((candidates program verbs).flatMap (·.names)).Nodup && decide fragment.declaredNames.Nodup

/-- A body that has a name of the module for a variable of its own, and needs the other one. -/
def shadowingBody (own needed : String) : String :=
  "const " ++ own ++ " = 5;\nreturn " ++ needed ++ ";"

theorem hoistedNames_rate :
    (Grammar.parse? pricesModule).any (fun program =>
      (Fragment.parse? (shadowingBody "price" "rate")).any fun fragment =>
        declaresOnce program fragment && decide (hoistedNames program fragment verbs).Nodup) = true := by
  decide +kernel

attribute [local instance] Recovery.verbatim

/-- What is computed from the constant stays where it is when the body needs the constant alone. -/
theorem not_redeclares_price : ∃ program fragment, Grammar.parse? pricesModule = some program ∧
    Fragment.parse? (shadowingBody "price" "rate") = some fragment ∧
    ((candidates program verbs).flatMap (·.names)).Nodup ∧ fragment.declaredNames.Nodup ∧
    ∀ name ∈ fragment.declaredNames, ¬ Redeclares program fragment verbs name := by
  have h := hoistedNames_rate
  simp only [Option.any_eq_true, declaresOnce, Bool.and_eq_true, decide_eq_true_eq] at h
  obtain ⟨program, hprogram, fragment, hparse, ⟨hmodule, hbody⟩, hnodup⟩ := h
  exact ⟨program, fragment, hprogram, hparse, hmodule, hbody,
    (nodup_hoistedNames_iff hparse hmodule hbody).2.2.1 hnodup⟩

/-- Is a name of the body declared again by what it takes along, and twice in the body that comes out? -/
def hoistsOwnName [Recovery] (program : Node) (fragment : Fragment) (body : String) : Bool :=
  (dependencies program fragment verbs).any (·.names.any fragment.declaredNames.contains) &&
    (Fragment.parse? (prependDeclarations body (freeDeclarations program body verbs))).any
      fun hoisted => decide ¬ hoisted.declaredNames.Nodup

theorem hoistsOwnName_price :
    (Grammar.parse? pricesModule).any (fun program =>
      (Fragment.parse? (shadowingBody "rate" "price")).any fun fragment =>
        declaresOnce program fragment &&
          hoistsOwnName program fragment (shadowingBody "rate" "price")) = true := by
  decide +kernel

/-- The constant comes along with the one that is computed from it, and the body declares it twice. -/
theorem redeclares_rate : ∃ program fragment hoisted, Grammar.parse? pricesModule = some program ∧
    Fragment.parse? (shadowingBody "rate" "price") = some fragment ∧
    ((candidates program verbs).flatMap (·.names)).Nodup ∧ fragment.declaredNames.Nodup ∧
    (∃ candidate ∈ dependencies program fragment verbs, ∃ name ∈ candidate.names,
      name ∈ fragment.declaredNames) ∧
    Fragment.parse? (prependDeclarations (shadowingBody "rate" "price")
      (freeDeclarations program (shadowingBody "rate" "price") verbs)) = some hoisted ∧
    ¬ hoisted.declaredNames.Nodup := by
  have h := hoistsOwnName_price
  simp only [Option.any_eq_true, declaresOnce, hoistsOwnName, Bool.and_eq_true, decide_eq_true_eq,
    List.any_eq_true, List.contains_iff_mem] at h
  obtain ⟨program, hprogram, fragment, hparse, ⟨hmodule, hbody⟩, htaken, hoisted, hhoisted, htwice⟩ := h
  exact ⟨program, fragment, hoisted, hprogram, hparse, hmodule, hbody, htaken, hhoisted, htwice⟩

end RouteBinder.Body
