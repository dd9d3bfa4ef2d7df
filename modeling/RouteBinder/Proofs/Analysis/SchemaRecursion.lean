import RouteBinder.Grammar.Tree
import RouteBinder.Proofs.Analysis.RecursionDepth
import RouteBinder.Proofs.Analysis.SchemaRules

/-!
# RouteBinder.Proofs.Analysis.SchemaRecursion

**Schemas that refer to themselves.** `translateWithin` reads schemas by the same rules as `interpret`, but it
has nothing that makes it come to an end: it goes from a name to its constant wherever the constant stands,
keeps the names of the constants that it is reading in a set, and uses up one level of its depth of
recursion for each call. In every scope some depth is enough for it, whatever the constants refer to, and
it leaves the set as it found it (`translateWithin_returns`): what is left to do becomes less with each
name in the set, and with each step into an expression while no name is added.
-/

namespace RouteBinder.Analysis.Schema

open Source

/-! ### Reading with a set of names -/

/-- Readings that know the names of the constants that are being read; one that would need more depth of
recursion than it is given has no result. -/
abbrev Resolving := StateT (List String) Option

variable {scope : Scope} {resolving : List String} {node : Node} {depth : Nat}

/-- The schema that a name stands for. A constant is read with its name in the set. -/
def resolveName (scope : Scope) (self : Node → Resolving (Option Parsed)) (name : String) :
    Resolving (Option Parsed) :=
  match declaredType? scope name with
  | some type => return some { type }
  | none => do
    let resolving ← get
    if resolving.contains name then
      return some { type := .named ("z.infer<typeof " ++ name ++ ">") }
    else
      match scope.lookup? name with
      | some binding =>
        match binding.kind, binding.value with
        | .simple, some value => do
          set (name :: resolving)
          let parsed ← self value
          modify fun names => names.filter (· != name)
          return parsed
        | _, _ => return none
      | none => return none

/-- The schema that an expression stands for, as far as it is found within a depth of recursion. -/
def translateWithin (scope : Scope) : Nat → Node → Resolving (Option Parsed)
  | 0, _ => fun _ => none
  | depth + 1, node =>
    expressionRule (translateWithin scope depth) (resolveName scope (translateWithin scope depth)) node

/-! ### The reading without a set -/

/-- The schema that a name stands for, while the names in `following` are being followed. -/
def followName (scope : Scope) (following : List String)
    (follow : List String → Node → Option Parsed) (name : String) : Option Parsed :=
  match declaredType? scope name with
  | some type => some { type }
  | none =>
    if following.contains name then some { type := .named ("z.infer<typeof " ++ name ++ ">") }
    else
      match scope.lookup? name with
      | some binding =>
        match binding.kind, binding.value with
        | .simple, some value => follow (name :: following) value
        | _, _ => none
      | none => none

/-- Computations with the same value. -/
def Correspondence.same : Correspondence Id Id where
  Rel x y := x = y
  pure _ := rfl
  bind h hf := by
    subst h
    exact congrArg _ (funext hf)

/-- Nothing else than nodes inside the node is read, so none is left out for its size. -/
theorem interpret_eq (scope : Scope) (following : List String) (node : Node) :
    interpret scope following node =
      Id.run (expressionRule (interpret scope following) (followName scope following (interpret scope))
        node) := by
  rw [interpret]
  refine Correspondence.expressionRule_rel (c := .same) (fun part hpart => if_pos hpart.size_lt) fun name => ?_
  show _ = followName scope following (interpret scope) name
  unfold followName
  cases declaredType? scope name with
  | some type => rfl
  | none =>
      cases hfresh : following.contains name with
      | true => rfl
      | false =>
          cases scope.lookup? name <;> rfl

/-! ### Enough depth -/

/-- The sizes of all constants in scope together. -/
def valueSizes (scope : Scope) : Nat := Node.sizeOfParts (scope.all.filterMap (·.value))

theorem size_le_valueSizes {name : String} {binding : Binding} {value : Node}
    (hl : scope.lookup? name = some binding) (hvalue : binding.value = some value) :
    value.size ≤ valueSizes scope :=
  Node.size_le_sizeOfParts (List.mem_filterMap.2 ⟨binding, List.mem_of_find?_eq_some hl, hvalue⟩)

/-- The depth that is enough while the names are being resolved. Resolving one more name may start over
with the largest constant. -/
def sufficientDepth (scope : Scope) (resolving : List String) (node : Node) : Nat :=
  scope.unlisted resolving * (valueSizes scope + 1) + node.size

theorem sufficientDepth_part {part : Node} (h : part.size < node.size) :
    sufficientDepth scope resolving part < sufficientDepth scope resolving node :=
  Nat.add_lt_add_left h _

theorem sufficientDepth_name {name : String} {binding : Binding} {value : Node}
    (hl : scope.lookup? name = some binding) (hvalue : binding.value = some value)
    (hfresh : resolving.contains name = false) :
    sufficientDepth scope (name :: resolving) value < sufficientDepth scope resolving node := by
  have hsize := Nat.lt_succ_of_le (size_le_valueSizes hl hvalue)
  have hless := Typing.mul_add_lt_mul (Scope.unlisted_cons_lt hl hfresh) hsize
  exact Nat.lt_add_right _ hless

/-- Computations that have a result, and leave the names that are being resolved as they are. -/
def Correspondence.returning (resolving : List String) :
    Correspondence (StateT (List String) Option) Id where
  Rel x y := x.run resolving = some (Id.run y, resolving)
  pure _ := rfl
  bind h hf := by
    rw [StateT.run_bind, h]
    exact hf _

/-- A name that is taken out again was not among the names before. -/
theorem filter_cons_fresh {name : String} (hfresh : resolving.contains name = false) :
    (name :: resolving).filter (· != name) = resolving := by
  rw [List.filter_cons_of_neg (by simp only [bne_self_eq_false, Bool.false_eq_true, not_false_iff]),
    List.filter_eq_self]
  intro other hother
  rw [bne_iff_ne]
  rintro rfl
  rw [← Bool.not_eq_true, List.contains_iff_mem] at hfresh
  exact hfresh hother

theorem run_resolveName {self : Node → Resolving (Option Parsed)}
    {follow : List String → Node → Option Parsed} {name : String}
    (h : ∀ binding value, scope.lookup? name = some binding → binding.value = some value →
      resolving.contains name = false →
        (self value).run (name :: resolving) = some (follow (name :: resolving) value, name :: resolving)) :
    (resolveName scope self name).run resolving =
      some (followName scope resolving follow name, resolving) := by
  unfold resolveName followName
  cases declaredType? scope name with
  | some type => rfl
  | none =>
      simp only [StateT.run_bind, StateT.run_get, Option.pure_def, Option.bind_eq_bind, Option.bind_some]
      cases hfresh : resolving.contains name with
      | true => rfl
      | false =>
          cases hl : scope.lookup? name with
          | none => rfl
          | some binding =>
              dsimp only
              cases hvalue : binding.value with
              | none => cases binding.kind <;> rfl
              | some value =>
                  cases binding.kind with
                  | simple =>
                      have hread := h binding value hl hvalue hfresh
                      simp only [Bool.false_eq_true, if_false, StateT.run_bind, StateT.run_set, hread,
                        StateT.run_modify, StateT.run_pure, Option.pure_def, Option.bind_eq_bind,
                        Option.bind_some, filter_cons_fresh hfresh]
                  | _ => rfl

/-- The reading comes to an end, with the result of `interpret`, and with the names as they were. -/
theorem run_translateWithin (h : sufficientDepth scope resolving node ≤ depth) :
    (translateWithin scope depth node).run resolving =
      some (interpret scope resolving node, resolving) := by
  induction depth generalizing resolving node with
  | zero =>
      have := node.size_pos
      unfold sufficientDepth at h
      omega
  | succ depth ih =>
      rw [translateWithin, interpret_eq]
      refine Correspondence.expressionRule_rel (c := .returning resolving) (fun part hpart => ?_)
        fun name => run_resolveName fun binding value hl hvalue hfresh => ?_
      · have := @sufficientDepth_part scope resolving node part hpart.size_lt
        exact ih (by omega)
      -- A constant that is not being read yet leaves fewer names.
      · have := @sufficientDepth_name scope resolving node name binding value hl hvalue hfresh
        exact ih (by omega)

/-- The name of a constant that is being read, and has no annotation, stands for itself. -/
theorem run_resolveName_of_mem {self : Node → Resolving (Option Parsed)} {name : String}
    (hname : name ∈ resolving) (hdeclared : declaredType? scope name = none) :
    (resolveName scope self name).run resolving =
      some (some { type := .named ("z.infer<typeof " ++ name ++ ">") }, resolving) := by
  have hcontains : resolving.contains name = true := List.contains_iff_mem.2 hname
  simp only [resolveName, hdeclared, StateT.run_bind, StateT.run_get, Option.pure_def,
    Option.bind_eq_bind, Option.bind_some, hcontains, if_true]
  rfl

/-- In every scope, reading a schema comes to an end and leaves the names that are being resolved as they
were; a name that is one of them, and has no annotation, stands for itself wherever it is read. -/
theorem translateWithin_returns (scope : Scope) (resolving : List String) :
    (∀ node depth, sufficientDepth scope resolving node ≤ depth →
      (translateWithin scope depth node).run resolving =
        some (interpret scope resolving node, resolving)) ∧
    ∀ name ∈ resolving, declaredType? scope name = none → ∀ depth,
      (resolveName scope (translateWithin scope depth) name).run resolving =
        some (some { type := .named ("z.infer<typeof " ++ name ++ ">") }, resolving) ∧
      ∀ node expression, node.unwrap? = some expression → expression.kind = .identifier →
        expression.text = name → (translateWithin scope (depth + 1) node).run resolving =
          some (some { type := .named ("z.infer<typeof " ++ name ++ ">") }, resolving) := by
  refine ⟨fun node depth => run_translateWithin, fun name hname hdeclared depth => ?_⟩
  refine ⟨run_resolveName_of_mem hname hdeclared, fun node expression hexpression hkind htext => ?_⟩
  rw [translateWithin, expressionRule, hexpression]
  dsimp only
  rw [hkind, htext]
  exact run_resolveName_of_mem hname hdeclared

/-- Two constants that refer to themselves and to each other. -/
def loopedSource : String :=
  "const Tree = z.object(\x7b up: (Tree), kids: z.array(Leaf) \x7d);\n" ++
  "const Leaf = z.object(\x7b tree: Tree \x7d).extend(\x7b twin: Leaf.optional() \x7d).merge(Tree);\n"

def loopedType : String :=
  "\x7b up: z.infer<typeof Tree>; " ++
  "kids: \x7b tree: z.infer<typeof Tree>; twin?: z.infer<typeof Leaf> \x7d[] \x7d"

/-- The first constant has no annotation, and describes the type. -/
def readsLooped (program : Node) : Bool :=
  let scope := Scope.ofModule program
  let tree := Node.leaf {} .identifier "Tree"
  (declaredType? scope "Tree").isNone &&
    ((translateWithin scope (sufficientDepth scope [] tree) tree).run []).any fun (parsed, _) =>
      parsed.any (·.type.render == loopedType)

set_option maxRecDepth 1000000 in
theorem readsLooped_loopedSource : (Grammar.parse? loopedSource).any readsLooped = true := by
  decide +kernel

theorem translateWithin_returns_looped : ∃ program, Grammar.parse? loopedSource = some program ∧
    let scope := Scope.ofModule program
    let tree := Node.leaf {} .identifier "Tree"
    (∃ parsed, interpret scope [] tree = some parsed ∧ parsed.type.render = loopedType) ∧
    declaredType? scope "Tree" = none ∧ tree.unwrap? = some tree ∧
      (translateWithin scope 1 tree).run ["Tree"] =
        some (some { type := .named "z.infer<typeof Tree>" }, ["Tree"]) := by
  obtain ⟨program, hparse, hreads⟩ := (Option.any_eq_true _ _).1 readsLooped_loopedSource
  obtain ⟨hdeclared, hreads⟩ := Bool.and_eq_true_iff.1 hreads
  have hdeclared := Option.isNone_iff_eq_none.1 hdeclared
  have hunwrap : (Node.leaf {} .identifier "Tree").unwrap? = some (.leaf {} .identifier "Tree") := by
    rw [Node.unwrap?_eq]
    rfl
  have hreturns := translateWithin_returns (.ofModule program) []
  have hitself := translateWithin_returns (.ofModule program) ["Tree"]
  rw [hreturns.1 _ _ le_rfl, Option.any_some] at hreads
  obtain ⟨parsed, hparsed, htype⟩ := (Option.any_eq_true _ _).1 hreads
  refine ⟨program, hparse, ⟨parsed, hparsed, beq_iff_eq.1 htype⟩, hdeclared, hunwrap, ?_⟩
  exact (hitself.2 "Tree" List.mem_cons_self hdeclared 0).2 _ _ hunwrap rfl rfl

end RouteBinder.Analysis.Schema
