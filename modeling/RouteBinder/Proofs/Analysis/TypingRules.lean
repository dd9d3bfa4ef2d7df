import RouteBinder.Analysis.Typing
import RouteBinder.Proofs.Source.Inside

/-!
# RouteBinder.Proofs.Analysis.TypingRules

**What the rules of typing ask for.** The rules are written over the types of smaller nodes, of names and
of functions. Three facts are all that is needed of them: they only ask for nodes inside the node and for
the function that it calls; they find what they find with other answers, too, as long as these keep what
was found; and they only fail with a failure of what they ask for. All of this is in
`expressionRule_refines` and `returnRule_refines`, with one lemma for every rule before them.
-/

namespace RouteBinder.Analysis.Typing

open Source

/-! ### Results that are kept -/

/-- What the first computation finds, the second finds as well; and the first only fails in a permitted
way. -/
def Refines {α : Type} (permitted : CircularReturn → Prop) (a b : Except CircularReturn α) : Prop :=
  (∃ result, a = .ok result ∧ b = .ok result) ∨ ∃ cause, permitted cause ∧ a = .error cause

variable {permitted : CircularReturn → Prop}

theorem Refines.ok {α : Type} (result : α) :
    Refines permitted (.ok result) (.ok result : Except CircularReturn α) :=
  Or.inl ⟨result, rfl, rfl⟩

theorem Refines.eq_ok {α : Type} {a b : Except CircularReturn α} {result : α}
    (h : Refines permitted a b) (ha : a = .ok result) : b = .ok result := by
  subst ha
  rcases h with ⟨result', heq, hb⟩ | ⟨cause, -, heq⟩
  · cases heq
    exact hb
  · cases heq

theorem refines_of_eq_ok {α : Type} {a b : Except CircularReturn α}
    (h : ∀ result, a = .ok result → b = .ok result) : Refines (fun _ => True) a b := by
  cases a with
  | ok result => exact Or.inl ⟨result, rfl, h result rfl⟩
  | error cause => exact Or.inr ⟨cause, trivial, rfl⟩

/-- Nothing permits to fail. -/
theorem refines_self_iff {α : Type} {a : Except CircularReturn α} :
    Refines (fun _ => False) a a ↔ ∃ result, a = .ok result := by
  constructor
  · rintro (⟨result, ha, -⟩ | ⟨_, hfalse, -⟩)
    · exact ⟨result, ha⟩
    · exact hfalse.elim
  · rintro ⟨result, ha⟩
    exact Or.inl ⟨result, ha, ha⟩

theorem Refines.bind {α β : Type} {a b : Except CircularReturn α}
    {f g : α → Except CircularReturn β} (h : Refines permitted a b)
    (hf : ∀ x, Refines permitted (f x) (g x)) : Refines permitted (a >>= f) (b >>= g) := by
  rcases h with ⟨result, rfl, rfl⟩ | ⟨cause, hcause, rfl⟩
  · exact hf result
  · exact Or.inr ⟨cause, hcause, rfl⟩

theorem Refines.map {α β : Type} {a b : Except CircularReturn α} (h : Refines permitted a b)
    (f : α → β) : Refines permitted (a.map f) (b.map f) := by
  rcases h with ⟨result, rfl, rfl⟩ | ⟨cause, hcause, rfl⟩
  · exact Refines.ok (f result)
  · exact Or.inr ⟨cause, hcause, rfl⟩

theorem refines_mapM {α β : Type} {f g : α → Except CircularReturn β} {items : List α}
    (h : ∀ item ∈ items, Refines permitted (f item) (g item)) :
    Refines permitted (items.mapM f) (items.mapM g) := by
  induction items with
  | nil => exact Refines.ok []
  | cons item rest ih =>
      rw [List.mapM_cons, List.mapM_cons]
      refine (h item List.mem_cons_self).bind fun x => ?_
      refine (ih fun other ho => h other (List.mem_cons_of_mem _ ho)).bind fun xs => ?_
      exact Refines.ok (x :: xs)

/-! ### The rules -/

variable {scope : Scope} {self self' : Node → Typed} {variable_ variable' : String → Typed}
  {returned returned' : String → Typed} {node : Node}

/-- The types of all nodes inside a node are kept. -/
def RefinesInside (permitted : CircularReturn → Prop) (node : Node) (self self' : Node → Typed) :
    Prop :=
  ∀ part, part.Inside node → Refines permitted (self part) (self' part)

theorem RefinesInside.mono {part : Node} (h : RefinesInside permitted node self self')
    (hpart : part.AtOrInside node) : RefinesInside permitted part self self' := fun other ho =>
  h other (ho.trans_atOrInside hpart)

theorem optionalType_refines {part? : Option Node} (h : RefinesInside permitted node self self')
    (hpart : ∀ part, part? = some part → part.Inside node) :
    Refines permitted (optionalType self part?) (optionalType self' part?) := by
  cases part? with
  | none => exact Refines.ok _
  | some part => exact h part (hpart part rfl)

theorem returnRule_refines (h : RefinesInside permitted node self self') :
    Refines permitted (returnRule self node) (returnRule self' node) := by
  unfold returnRule
  split
  · exact Refines.ok _
  · exact Refines.ok _
  · rename_i body _ hbody
    have hinside := Node.inside_of_field? hbody
    split
    · split
      · rename_i only honly
        refine optionalType_refines h fun part hpart => ?_
        have hmem : only ∈ body.ownNodes.filter (·.kind == .returnStatement) := by
          rw [honly]
          exact List.mem_singleton_self only
        have honlybody := Node.atOrInside_of_mem_ownNodes (List.mem_filter.1 hmem).1
        exact (Node.inside_of_firstNamed? hpart).trans (honlybody.trans_inside hinside)
      · exact Refines.ok _
    · exact h body hinside

theorem memberFields_refines (h : RefinesInside permitted node self self')
    (hv : ∀ name, Refines permitted (variable_ name) (variable' name)) :
    Refines permitted (memberFields self variable_ node) (memberFields self' variable' node) := by
  unfold memberFields
  split
  · split
    · exact Refines.ok _
    · split
      · exact Refines.ok _
      · refine Refines.bind ?_ fun _ => Refines.ok _
        exact optionalType_refines h fun _ => Node.inside_of_field?
  · exact (hv _).bind fun _ => Refines.ok _
  · refine Refines.bind ?_ fun _ => Refines.ok _
    exact optionalType_refines h fun _ => Node.inside_of_firstNamed?
  · exact Refines.ok _

theorem objectRule_refines (h : RefinesInside permitted node self self')
    (hv : ∀ name, Refines permitted (variable_ name) (variable' name)) :
    Refines permitted (objectRule self variable_ node) (objectRule self' variable' node) := by
  refine Refines.bind (refines_mapM fun member hm => ?_) fun _ => Refines.ok _
  exact memberFields_refines (h.mono (Node.inside_of_mem_namedChildren hm).atOrInside) hv

theorem arrayRule_refines (h : RefinesInside permitted node self self') :
    Refines permitted (arrayRule self node) (arrayRule self' node) := by
  refine Refines.bind (refines_mapM fun element he => ?_) fun _ => Refines.ok _
  exact h element (Node.inside_of_mem_namedChildren (List.mem_filter.1 he).1)

theorem methodRule_refines {args : List Node} (h : RefinesInside permitted node self self')
    (hargs : ∀ argument ∈ args, argument.Inside node) (receiver : TypeExpr) (method : String) :
    Refines permitted (methodRule self receiver method args)
      (methodRule self' receiver method args) := by
  have hmapper : ∀ function ∈ args,
      Refines permitted ((returnRule self function).map TypeExpr.array)
        ((returnRule self' function).map TypeExpr.array) := fun function hf =>
    (returnRule_refines (h.mono (hargs function hf).atOrInside)).map _
  unfold methodRule
  dsimp only
  split
  · split
    · exact Refines.ok _
    · split
      · exact Refines.ok _
      · split
        · split
          · exact hmapper _ List.mem_cons_self
          · exact Refines.ok _
        · split
          · exact hmapper _ List.mem_cons_self
          · exact Refines.ok _
        · exact Refines.ok _
  · exact Refines.ok _

theorem memberCallRule_refines {object : Node} {args : List Node}
    (h : RefinesInside permitted node self self') (hobject : object.Inside node)
    (hargs : ∀ argument ∈ args, argument.Inside node) (method : String) :
    Refines permitted (memberCallRule scope self object method args)
      (memberCallRule scope self' object method args) := by
  unfold memberCallRule
  dsimp only
  split
  · exact Refines.ok _
  · split
    · exact Refines.ok _
    · split
      · exact Refines.ok _
      · split
        · exact Refines.ok _
        · exact (h object hobject).bind fun receiver => methodRule_refines h hargs receiver method

theorem callRule_refines (h : RefinesInside permitted node self self')
    (hr : Refines permitted (returned (node.fieldText .function))
      (returned' (node.fieldText .function))) :
    Refines permitted (callRule scope self returned node) (callRule scope self' returned' node) := by
  have hargs : ∀ argument ∈ node.callArguments, argument.Inside node := fun _ =>
    Node.inside_of_mem_callArguments
  unfold callRule
  dsimp only
  split
  · exact Refines.ok _
  · split
    · exact Refines.ok _
    · split
      · exact Refines.ok _
      · split
        · split
          · rename_i first mapper rest heq
            split
            · have hmem : mapper ∈ node.callArguments := by
                rw [heq]
                exact List.mem_cons_of_mem _ List.mem_cons_self
              exact (returnRule_refines (h.mono (hargs mapper hmem).atOrInside)).map _
            · exact Refines.ok _
          · exact Refines.ok _
        · split
          · exact Refines.ok _
          · rename_i inner hinner
            split
            · exact hr
            · split
              · rename_i object method hparts
                have hobject := (Node.inside_of_memberParts? hparts).trans
                  (Node.inside_of_unwrappedField? hinner)
                exact memberCallRule_refines h hobject hargs method
              · exact Refines.ok _

theorem memberRule_refines (h : RefinesInside permitted node self self') :
    Refines permitted (memberRule self node) (memberRule self' node) := by
  unfold memberRule
  split
  · exact Refines.ok _
  · rename_i object name hparts
    refine (h object (Node.inside_of_memberParts? hparts)).bind fun receiver => ?_
    split
    · exact Refines.ok _
    · exact Refines.ok _
    · split <;> exact Refines.ok _

theorem subscriptRule_refines (h : RefinesInside permitted node self self') :
    Refines permitted (subscriptRule self node) (subscriptRule self' node) := by
  refine Refines.bind (optionalType_refines h fun _ => Node.inside_of_field?) fun receiver => ?_
  split <;> exact Refines.ok _

theorem binaryRule_refines (h : RefinesInside permitted node self self') :
    Refines permitted (binaryRule self node) (binaryRule self' node) := by
  unfold binaryRule
  dsimp only
  split
  · exact Refines.ok _
  · refine Refines.bind (optionalType_refines h fun _ => Node.inside_of_field?) fun left => ?_
    refine Refines.bind (optionalType_refines h fun _ => Node.inside_of_field?) fun right => ?_
    split
    · split
      · exact Refines.ok _
      · split <;> exact Refines.ok _
    · split
      · exact Refines.ok _
      · split <;> exact Refines.ok _

/-- The type of a node is kept when the types of the nodes inside it, of names and of the function that it
calls are. -/
theorem expressionRule_refines (h : RefinesInside permitted node self self')
    (hv : ∀ name, Refines permitted (variable_ name) (variable' name))
    (hr : node.kind = .callExpression → Refines permitted (returned (node.fieldText .function))
      (returned' (node.fieldText .function))) :
    Refines permitted (expressionRule scope self variable_ returned node)
      (expressionRule scope self' variable' returned' node) := by
  have hfirst : ∀ part, node.firstNamed? = some part → part.Inside node := fun _ =>
    Node.inside_of_firstNamed?
  unfold expressionRule
  split
  all_goals first
    | exact Refines.ok _
    | exact optionalType_refines h hfirst
    | exact (optionalType_refines h hfirst).map _
    | exact hv _
    | exact objectRule_refines h hv
    | exact arrayRule_refines h
    | exact callRule_refines h (hr (by assumption))
    | exact memberRule_refines h
    | exact subscriptRule_refines h
    | exact binaryRule_refines h
    | skip
  · split
    · exact Refines.ok _
    · rename_i constant heq
      refine h constant (Node.inside_of_mem_namedChildren ?_)
      rw [heq]
      exact List.mem_singleton_self constant
    · exact Refines.ok _
  · refine Refines.bind (optionalType_refines h fun _ => Node.inside_of_field?) fun _ => ?_
    refine Refines.bind (optionalType_refines h fun _ => Node.inside_of_field?) fun _ => ?_
    exact Refines.ok _

end RouteBinder.Analysis.Typing
