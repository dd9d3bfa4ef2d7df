import Mathlib.Order.Nat
import RouteBinder.Proofs.Analysis.TypingRules

/-!
# RouteBinder.Proofs.Analysis.RecursionDepth

**How deep typing goes.** `typeWithin` types expressions like `typeOf`, but nothing keeps it from typing a
function within itself: it goes on until the depth of recursion that it is given is used up. The two find
the same types (`typeOf_eq_ok_iff`), so a call that comes back to a function that is being typed is the
only reason for which no depth is enough. Where some depth is enough, so is one that is known beforehand
from the number of names in scope and the size of the source (`typeWithin_sufficientDepth`).
-/

namespace RouteBinder.Analysis

open Source

/-- The values and functions in a scope are no larger than that. -/
def Scope.FitsIn (scope : Scope) (size : Nat) : Prop :=
  ∀ binding ∈ scope.all, ∀ node, binding.value = some node ∨ binding.function = some node →
    node.size ≤ size

theorem Scope.FitsIn.of_lookup? {scope : Scope} {size : Nat} {name : String} {binding : Binding}
    {node : Node} (h : scope.FitsIn size) (hl : scope.lookup? name = some binding)
    (hnode : binding.value = some node ∨ binding.function = some node) : node.size ≤ size :=
  h binding (List.mem_of_find?_eq_some hl) node hnode

namespace Typing

/-! ### Typing with a depth of recursion -/

/-- The type of a name: the declared one, or that of its value unless the name is being followed. -/
def nameRule (scope : Scope) (following : List String) (followed : String → Node → Typed)
    (name : String) : Typed :=
  if name == "undefined" then .ok .undefined
  else
    match scope.lookup? name with
    | none => .ok .unknown
    | some binding =>
      match binding.declaredType, binding.kind, binding.value with
      | some type, _, _ => .ok (writtenType type)
      | none, .simple, some value =>
        if following.contains name = false then followed name value else .ok .unknown
      | none, _, _ => .ok .unknown

/-- The type of a call of a name: what the function returns that it is bound to. -/
def calledRule (scope : Scope) (result : String → Node → Typed) (name : String) : Typed :=
  match scope.lookup? name with
  | none => .ok .unknown
  | some binding =>
    match binding.function with
    | none => .ok .unknown
    | some function => result name function

/-- The type of an expression, as far as it is found within a depth of recursion. Only names are kept from
being followed within themselves. -/
def typeWithin (scope : Scope) : Nat → List String → Node → Typed
  | 0, _, _ => .error ⟨""⟩
  | depth + 1, following, node =>
    expressionRule scope (typeWithin scope depth following)
      (nameRule scope following fun name => typeWithin scope depth (name :: following))
      (calledRule scope fun _ => returnRule (typeWithin scope depth following)) node

theorem typeWhile_eq (scope : Scope) (following entered : List String) (node : Node) :
    typeWhile scope following entered node =
      expressionRule scope
        (fun part => if part.size < node.size then typeWhile scope following entered part
          else .ok .unknown)
        (nameRule scope following fun name => typeWhile scope (name :: following) [])
        (calledRule scope fun name function =>
          if entered.contains name = false then
            returnRule (typeWhile scope following (name :: entered)) function
          else .error ⟨name⟩) node := by
  rw [typeWhile]
  congr 1
  · funext name
    unfold nameRule
    cases scope.lookup? name <;> rfl
  · funext name
    unfold calledRule
    cases scope.lookup? name <;> rfl

variable {scope : Scope} {following entered : List String} {node : Node} {depth size : Nat}
  {permitted : CircularReturn → Prop}

theorem nameRule_refines {followed followed' : String → Node → Typed}
    (h : ∀ name binding value, scope.lookup? name = some binding → binding.value = some value →
      following.contains name = false → Refines permitted (followed name value) (followed' name value))
    (name : String) :
    Refines permitted (nameRule scope following followed name)
      (nameRule scope following followed' name) := by
  unfold nameRule
  split
  · exact Refines.ok _
  · split
    · exact Refines.ok _
    · rename_i binding hl
      split
      · exact Refines.ok _
      · rename_i value _ _ hvalue
        split
        · rename_i hfresh
          exact h name binding value hl hvalue hfresh
        · exact Refines.ok _
      · exact Refines.ok _

theorem calledRule_refines {result result' : String → Node → Typed} {name : String}
    (h : ∀ binding function, scope.lookup? name = some binding → binding.function = some function →
      Refines permitted (result name function) (result' name function)) :
    Refines permitted (calledRule scope result name) (calledRule scope result' name) := by
  unfold calledRule
  split
  · exact Refines.ok _
  · rename_i binding hl
    split
    · exact Refines.ok _
    · rename_i function hf
      exact h binding function hl hf

/-! ### More depth -/

theorem typeWithin_succ : ∀ (depth : Nat) (following : List String) (node : Node),
    Refines (fun _ => True) (typeWithin scope depth following node)
      (typeWithin scope (depth + 1) following node)
  | 0, _, _ => refines_of_eq_ok fun _ h => by cases h
  | depth + 1, following, node => by
      rw [typeWithin, typeWithin]
      refine expressionRule_refines (fun part _ => typeWithin_succ depth following part)
        (nameRule_refines fun name _ value _ _ _ => typeWithin_succ depth (name :: following) value)
        fun _ => calledRule_refines fun _ function _ _ => returnRule_refines fun part _ => ?_
      exact typeWithin_succ depth following part

/-- More depth never changes a type that was found. -/
theorem typeWithin_mono {depth' : Nat} (h : depth ≤ depth') :
    Refines (fun _ => True) (typeWithin scope depth following node)
      (typeWithin scope depth' following node) := by
  induction h with
  | refl => exact refines_of_eq_ok fun _ h => h
  | step _ ih =>
      exact refines_of_eq_ok fun type htype => (typeWithin_succ _ following node).eq_ok (ih.eq_ok htype)

/-! ### Enough depth -/

/-- The depth that is enough while names are being followed and functions typed. Following one more name
may start over with all functions, and typing one more function with the largest of them. -/
def depthLeft (scope : Scope) (size : Nat) (following entered : List String) (node : Node) : Nat :=
  (scope.unlisted following * (scope.all.length + 1) + scope.unlisted entered) * (size + 1) + node.size

theorem mul_add_lt_mul {a b k v : Nat} (h : a < b) (hv : v < k) : a * k + v < b * k := by
  have hmul := Nat.mul_le_mul_right k (Nat.succ_le_of_lt h)
  rw [Nat.succ_mul] at hmul
  omega

theorem unlisted_lt (scope : Scope) (names : List String) :
    scope.unlisted names < scope.all.length + 1 :=
  Nat.lt_succ_of_le (List.length_filter_le _ _)

theorem depthLeft_part {part : Node} (h : part.size < node.size) :
    depthLeft scope size following entered part < depthLeft scope size following entered node :=
  Nat.add_lt_add_left h _

theorem depthLeft_name {name : String} {binding : Binding} {value : Node} (hfits : scope.FitsIn size)
    (hl : scope.lookup? name = some binding) (hvalue : binding.value = some value)
    (hfresh : following.contains name = false) :
    depthLeft scope size (name :: following) [] value <
      depthLeft scope size following entered node := by
  have hnames := mul_add_lt_mul (Scope.unlisted_cons_lt hl hfresh) (unlisted_lt scope [])
  refine Nat.lt_add_right _ (mul_add_lt_mul (Nat.lt_add_right _ hnames) ?_)
  exact Nat.lt_succ_of_le (hfits.of_lookup? hl (Or.inl hvalue))

theorem depthLeft_function {name : String} {binding : Binding} {function part : Node}
    (hfits : scope.FitsIn size) (hl : scope.lookup? name = some binding)
    (hf : binding.function = some function) (hfresh : entered.contains name = false)
    (hpart : part.size < function.size) :
    depthLeft scope size following (name :: entered) part <
      depthLeft scope size following entered node := by
  have hsize := hfits.of_lookup? hl (Or.inr hf)
  refine Nat.lt_add_right _ (mul_add_lt_mul ?_ (by omega))
  exact Nat.add_lt_add_left (Scope.unlisted_cons_lt hl hfresh) _

/-- Whatever is found is found within the depth that is left. -/
theorem typeWhile_refines_typeWithin (hfits : scope.FitsIn size)
    (hdepth : depthLeft scope size following entered node ≤ depth) :
    Refines (fun _ => True) (typeWhile scope following entered node)
      (typeWithin scope depth following node) := by
  induction depth generalizing following entered node with
  | zero =>
      have := node.size_pos
      unfold depthLeft at hdepth
      omega
  | succ depth ih =>
      rw [typeWhile_eq, typeWithin]
      refine expressionRule_refines (fun part hpart => ?_) (nameRule_refines ?_)
        fun _ => calledRule_refines ?_
      · rw [if_pos hpart.size_lt]
        have := @depthLeft_part scope following entered node size part hpart.size_lt
        exact ih (by omega)
      -- A name leads to a binding that was not followed before, so fewer are left.
      · intro name binding value hl hvalue hfresh
        have := @depthLeft_name scope following entered node size name binding value hfits hl hvalue hfresh
        exact ih (by omega)
      · intro binding function hl hf
        split
        · rename_i hfresh
          refine returnRule_refines fun part hpart => ?_
          have := @depthLeft_function scope following entered node size _ binding function part hfits
            hl hf hfresh hpart.size_lt
          exact ih (by omega)
        · exact refines_of_eq_ok fun _ h => by cases h

/-! ### Functions that are typed within themselves -/

/-- A function that is being typed is not found within less depth than what is left. -/
def Pending (scope : Scope) (following entered : List String) (depth : Nat) : Prop :=
  ∀ name ∈ entered, ∀ binding function, scope.lookup? name = some binding →
    binding.function = some function → ∀ less < depth, ∀ type,
      returnRule (typeWithin scope less following) function ≠ .ok type

theorem Pending.mono {less : Nat} (h : Pending scope following entered depth) (hle : less ≤ depth) :
    Pending scope following entered less := fun name hn binding function hl hf other hlt =>
  h name hn binding function hl hf other (Nat.lt_of_lt_of_le hlt hle)

/-- What some depth is enough for is found, and no call comes back to a function that is being typed:
of all depths that are enough for a function the least one is looked at, and it would not be enough for
the function itself further inside. -/
theorem typeWithin_refines_typeWhile (hpending : Pending scope following entered depth) :
    Refines (fun _ => True) (typeWithin scope depth following node)
      (typeWhile scope following entered node) := by
  induction depth using Nat.strong_induction_on generalizing following entered node with
  | h depth ih =>
  cases depth with
  | zero => exact refines_of_eq_ok fun _ h => by cases h
  | succ depth =>
      rw [typeWhile_eq, typeWithin]
      refine expressionRule_refines (fun part hpart => ?_) (nameRule_refines ?_)
        fun _ => calledRule_refines fun binding function hl hf => refines_of_eq_ok fun type htype => ?_
      · rw [if_pos hpart.size_lt]
        exact ih depth (Nat.lt_succ_self _) (hpending.mono (Nat.le_succ _))
      · intro name binding value _ _ _
        exact ih depth (Nat.lt_succ_self _) fun other ho => absurd ho List.not_mem_nil
      -- A function that is pending would need less depth for its result than it has.
      · have hfresh : entered.contains (node.fieldText .function) = false := by
          rw [← Bool.not_eq_true, List.contains_iff_mem]
          intro hn
          exact hpending _ hn binding function hl hf depth (Nat.lt_succ_self _) type htype
        rw [if_pos hfresh]
        -- The least depth that is enough for the function is enough without entering it again.
        classical
        have hexists : ∃ least, ∃ type, returnRule (typeWithin scope least following) function =
            .ok type := ⟨depth, type, htype⟩
        obtain ⟨type', htype'⟩ := Nat.find_spec hexists
        have hle : Nat.find hexists ≤ depth := Nat.find_min' hexists ⟨type, htype⟩
        have hsame := (returnRule_refines fun _ _ => typeWithin_mono hle).eq_ok htype'
        obtain rfl := Except.ok.inj (htype.symm.trans hsame)
        have hinside : RefinesInside (fun _ => True) function
            (typeWithin scope (Nat.find hexists) following)
            (typeWhile scope following (node.fieldText .function :: entered)) := by
          refine fun part _ => ih _ (Nat.lt_succ_of_le hle) ?_
          intro other ho binding' function' hl' hf' less hless
          rcases List.mem_cons.1 ho with rfl | ho
          · obtain rfl := Option.some.inj (hl.symm.trans hl')
            obtain rfl := Option.some.inj (hf.symm.trans hf')
            exact not_exists.1 (Nat.find_min hexists hless)
          · exact hpending other ho binding' function' hl' hf' less (by omega)
        exact (returnRule_refines hinside).eq_ok htype'

end Typing

/-! ### Typing without a bound -/

open Typing

variable {scope : Scope} {node : Node} {type : TypeExpr}

/-- The depth that is enough for all that any depth is enough for. -/
def sufficientDepth (scope : Scope) (size : Nat) : Nat :=
  ((scope.all.length + 1) * (scope.all.length + 1)) * (size + 1)

theorem typeOf_of_typeWithin {depth : Nat} (h : typeWithin scope depth [] node = .ok type) :
    typeOf scope node = .ok type :=
  (typeWithin_refines_typeWhile fun _ ho => absurd ho List.not_mem_nil).eq_ok h

theorem typeWithin_sufficientDepth {size : Nat} (hfits : scope.FitsIn size) (hnode : node.size ≤ size)
    (h : typeOf scope node = .ok type) :
    typeWithin scope (sufficientDepth scope size) [] node = .ok type := by
  refine (typeWhile_refines_typeWithin hfits (Nat.le_of_lt ?_)).eq_ok h
  unfold depthLeft sufficientDepth
  refine mul_add_lt_mul ?_ (Nat.lt_succ_of_le hnode)
  exact mul_add_lt_mul (unlisted_lt scope []) (unlisted_lt scope [])

end RouteBinder.Analysis
