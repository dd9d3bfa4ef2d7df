import RouteBinder.Analysis.Schema
import RouteBinder.Proofs.Source.Inside

/-!
# RouteBinder.Proofs.Analysis.SchemaRules

**What the rules of schemas ask for.** The rules are written over the reading of nodes and of names, in any
monad. They only ask for nodes inside the node, and make of the answers what they make of them in any other
monad: two ways of reading that correspond to each other for these nodes and for names give results that
correspond (`expressionRule_rel`, with one lemma for every rule before it).
-/

namespace RouteBinder.Analysis.Schema

open Source

/-- A relation between computations in two monads that values and steps keep. -/
structure Correspondence (m n : Type → Type) [Monad m] [Monad n] where
  Rel : ∀ {α : Type}, m α → n α → Prop
  pure : ∀ {α : Type} (a : α), Rel (Pure.pure a) (Pure.pure a)
  bind : ∀ {α β : Type} {x : m α} {y : n α} {f : α → m β} {g : α → n β},
    Rel x y → (∀ a, Rel (f a) (g a)) → Rel (x >>= f) (y >>= g)

namespace Correspondence

variable {m n : Type → Type} [Monad m] [Monad n] (c : Correspondence m n)
  {self : Node → m (Option Parsed)} {self' : Node → n (Option Parsed)}
  {follow : String → m (Option Parsed)} {follow' : String → n (Option Parsed)} {node : Node}
  {args : List Node}

theorem mapM {α β : Type} {f : α → m β} {g : α → n β} {items : List α}
    (h : ∀ item ∈ items, c.Rel (f item) (g item)) : c.Rel (items.mapM f) (items.mapM g) := by
  have hloop : ∀ results : List β,
      c.Rel (List.mapM.loop f items results) (List.mapM.loop g items results) := by
    induction items with
    | nil => exact fun _ => c.pure _
    | cons item rest ih =>
        obtain ⟨hitem, hrest⟩ := List.forall_mem_cons.1 h
        exact fun _ => c.bind hitem fun _ => ih hrest _
  exact hloop []

/-- The two ways of reading correspond for the node and for all nodes in it. -/
def Agree (self : Node → m (Option Parsed)) (self' : Node → n (Option Parsed)) (node : Node) : Prop :=
  ∀ part : Node, part.AtOrInside node → c.Rel (self part) (self' part)

variable {c}

theorem Agree.of_inside {inner : Node} (h : c.Agree self self' node) (hinner : inner.Inside node) :
    c.Agree self self' inner := fun part hpart => h part (hpart.trans hinner.atOrInside)

theorem elementType_rel (h : c.Agree self self' node) :
    c.Rel (elementType self node) (elementType self' node) :=
  c.bind (h node (.refl node)) fun _ => c.pure _

theorem elementTypes_rel {elements : List Node} (h : ∀ element ∈ elements, c.Agree self self' element) :
    c.Rel (elements.mapM (elementType self)) (elements.mapM (elementType self')) :=
  c.mapM fun element he => elementType_rel (h element he)

theorem agree_of_arrayElements? {elements : List Node} (h : c.Agree self self' node)
    (he : arrayElements? node = some elements) : ∀ element ∈ elements, c.Agree self self' element := by
  rw [arrayElements?] at he
  split at he
  · rename_i array harray
    obtain ⟨-, he⟩ := Option.ite_none_right_eq_some.1 he
    obtain rfl := Option.some.inj he
    exact fun element helement => h.of_inside
      ((Node.inside_of_mem_namedChildren helement).trans_atOrInside (Node.atOrInside_of_unwrap? harray))
  · cases he

/-- What is made of the types of the elements, if there is an array literal. -/
theorem arrayElements?_rel {α : Type} (make : List TypeExpr → α) (otherwise : α)
    (h : c.Agree self self' node) :
    c.Rel
      (match arrayElements? node with
      | some elements => do return make (← elements.mapM (elementType self))
      | none => return otherwise)
      (match arrayElements? node with
      | some elements => do return make (← elements.mapM (elementType self'))
      | none => return otherwise) := by
  cases helements : arrayElements? node with
  | none => exact c.pure _
  | some elements =>
      exact c.bind (elementTypes_rel (agree_of_arrayElements? h helements)) fun _ => c.pure _

theorem agree_of_objectMembers? {members : List Node} (h : c.Agree self self' node)
    (hm : objectMembers? node = some members) : ∀ member ∈ members, c.Agree self self' member := by
  rw [objectMembers?] at hm
  split at hm
  · rename_i object hobject
    obtain ⟨-, hm⟩ := Option.ite_none_right_eq_some.1 hm
    obtain rfl := Option.some.inj hm
    exact fun member hmember => h.of_inside
      ((Node.inside_of_mem_namedChildren hmember).trans_atOrInside (Node.atOrInside_of_unwrap? hobject))
  · cases hm

theorem memberField?_rel (h : c.Agree self self' node) (hf : ∀ name, c.Rel (follow name) (follow' name)) :
    c.Rel (memberField? self follow node) (memberField? self' follow' node) := by
  unfold memberField?
  split
  · refine c.bind ?_ fun _ => c.pure _
    cases hvalue : node.field? .value with
    | none => exact c.pure _
    | some value => exact h value (Node.inside_of_field? hvalue).atOrInside
  · exact c.bind (hf _) fun _ => c.pure _
  · exact c.pure _

theorem shapeType_rel (h : c.Agree self self' node) (hf : ∀ name, c.Rel (follow name) (follow' name)) :
    c.Rel (shapeType self follow node) (shapeType self' follow' node) := by
  unfold shapeType
  split
  · rename_i members hmembers
    have hmember := agree_of_objectMembers? h hmembers
    exact c.bind (c.mapM fun member hm => memberField?_rel (hmember member hm) hf) fun _ => c.pure _
  · exact c.pure _

theorem builder_rel (method : String) (h : ∀ arg ∈ args, c.Agree self self' arg)
    (hf : ∀ name, c.Rel (follow name) (follow' name)) :
    c.Rel (builder self follow method args) (builder self' follow' method args) := by
  unfold builder
  split
  · exact c.pure _
  · rename_i first last _ hfirst hlast
    have hfirst := h first (List.mem_of_mem_head? hfirst)
    have hlast := h last (List.mem_of_getLast? hlast)
    split
    all_goals first
      | exact c.pure _
      | exact c.bind (elementType_rel hfirst) fun _ => c.pure _
      | exact c.bind (elementType_rel hlast) fun _ => c.pure _
      | exact c.bind (shapeType_rel hfirst hf) fun _ => c.pure _
      | exact arrayElements?_rel _ _ hlast
      | exact arrayElements?_rel _ _ hfirst
      | skip
    · split
      · exact c.pure _
      · exact c.pure _
  · exact c.pure _

theorem reshape_rel (fields : List Field) (method : String) (h : ∀ arg ∈ args, c.Agree self self' arg)
    (hf : ∀ name, c.Rel (follow name) (follow' name)) :
    c.Rel (reshape self follow fields method args) (reshape self' follow' fields method args) := by
  unfold reshape
  split
  · exact c.bind (shapeType_rel (h _ List.mem_cons_self) hf) fun _ => c.pure _
  · exact c.bind (elementType_rel (h _ List.mem_cons_self)) fun _ => c.pure _
  all_goals exact c.pure _

theorem modifier_rel (inner : Parsed) (method : String) (h : ∀ arg ∈ args, c.Agree self self' arg)
    (hf : ∀ name, c.Rel (follow name) (follow' name)) :
    c.Rel (modifier self follow inner method args) (modifier self' follow' inner method args) := by
  unfold modifier
  split
  · exact c.pure _
  · split
    · split
      · exact c.bind (reshape_rel _ method h hf) fun _ => c.pure _
      · exact c.pure _
    · split
      · exact c.pure _
      · split
        all_goals first
          | exact c.pure _
          | exact c.bind (elementType_rel (h _ List.mem_cons_self)) fun _ => c.pure _

/-- Readings that correspond for the nodes inside a node and for names read the node correspondingly. -/
theorem expressionRule_rel (h : ∀ part : Node, part.Inside node → c.Rel (self part) (self' part))
    (hf : ∀ name, c.Rel (follow name) (follow' name)) :
    c.Rel (expressionRule self follow node) (expressionRule self' follow' node) := by
  unfold expressionRule
  split
  · exact c.pure _
  · rename_i expression hexpression
    have hinside := Node.atOrInside_of_unwrap? hexpression
    split
    · exact hf _
    · split
      · rename_i object method hparts
        obtain ⟨callee, hcallee, hparts⟩ := Option.bind_eq_some_iff.1 hparts
        have hobject : object.Inside node :=
          ((Node.inside_of_memberParts? hparts).trans (Node.inside_of_field? hcallee)).trans_atOrInside
            hinside
        have hargs : ∀ arg ∈ expression.callArguments, c.Agree self self' arg := fun arg ha part hpart =>
          h part (hpart.trans_inside
            ((Node.inside_of_mem_callArguments ha).trans_atOrInside hinside))
        dsimp only
        split
        · exact builder_rel method hargs hf
        · refine c.bind (h object hobject) fun inner => ?_
          cases inner with
          | none => exact c.pure _
          | some inner => exact modifier_rel inner method hargs hf
      · exact c.pure _
    · exact c.pure _

end Correspondence

end RouteBinder.Analysis.Schema
