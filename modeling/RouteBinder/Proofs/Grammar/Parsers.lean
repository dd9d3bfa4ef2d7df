import RouteBinder.Grammar.Tree

/-!
# RouteBinder.Proofs.Grammar.Parsers

**Running parsers.** A parser is run step by step: what a sequence, an alternative or a repetition does at a
cursor is what its parts do there. Most alternatives of a rule are refused at their first token.

`Parse.Yields` says of a parser what all of its results have in common, wherever it is run.
-/

namespace RouteBinder.Grammar

open Source

namespace Parse

variable {α β : Type} {p q : Parse α} {f : α → Parse β} {cursor next : Cursor} {a : α}

/-! ### Steps -/

theorem run_bind (h : p cursor = some (a, next)) : (p >>= f) cursor = f a next := by
  show (p cursor).bind _ = _
  rw [h]
  rfl

theorem run_bind_none (h : p cursor = none) : (p >>= f) cursor = none := by
  show (p cursor).bind _ = _
  rw [h]
  rfl

theorem run_orElse (h : p cursor = some (a, next)) : (p <|> q) cursor = some (a, next) := by
  show (p cursor <|> q cursor) = _
  rw [h]
  rfl

theorem run_orElse_none (h : p cursor = none) : (p <|> q) cursor = q cursor := by
  show (p cursor <|> q cursor) = _
  rw [h]
  cases q cursor <;> rfl

theorem run_orElse_right_none (h : q cursor = none) : (p <|> q) cursor = p cursor := by
  cases hcursor : p cursor with
  | none => rw [run_orElse_none hcursor, h]
  | some result => exact run_orElse hcursor

theorem orElse_eq_some (h : (p <|> q) cursor = some (a, next)) :
    p cursor = some (a, next) ∨ q cursor = some (a, next) := by
  cases hcursor : p cursor with
  | none =>
      rw [run_orElse_none hcursor] at h
      exact Or.inr h
  | some result =>
      rw [run_orElse hcursor] at h
      exact Or.inl h

theorem run_optional (h : p cursor = some (a, next)) :
    optional p cursor = some (some a, next) := by
  refine run_orElse ?_
  show (p cursor).bind _ = _
  rw [h]
  rfl

theorem run_optional_none (h : p cursor = none) : optional p cursor = some (none, cursor) := by
  refine run_orElse_none ?_
  show (p cursor).bind _ = _
  rw [h]
  rfl

theorem run_many_none (h : p cursor = none) : many p cursor = some ([], cursor) := by
  rw [many, h]

theorem run_require_true : require true cursor = some ((), cursor) := rfl

/-! ### Results -/

/-- Every result of the parser has the property. -/
def Yields (p : Parse α) (P : α → Prop) : Prop := ∀ cursor a next, p cursor = some (a, next) → P a

variable {P : α → Prop} {Q : β → Prop}

theorem Yields.pure (h : P a) : (Pure.pure a : Parse α).Yields P := by
  rintro cursor a next h
  cases h
  exact h

theorem Yields.failure : (failure : Parse α).Yields P := nofun

theorem Yields.bind (hp : p.Yields P) (hf : ∀ a, P a → (f a).Yields Q) : (p >>= f).Yields Q := by
  intro cursor b next h
  cases hcursor : p cursor with
  | none =>
      rw [run_bind_none hcursor] at h
      cases h
  | some result =>
      rw [run_bind hcursor] at h
      exact hf _ (hp _ _ _ hcursor) _ _ _ h

/-- What a sequence yields is decided by its last part, whatever the parts before it yield. -/
theorem Yields.last (hf : ∀ a, (f a).Yields Q) : (p >>= f).Yields Q :=
  Yields.bind (P := fun _ => True) (fun _ _ _ _ => trivial) fun a _ => hf a

theorem Yields.orElse (hp : p.Yields P) (hq : q.Yields P) : (p <|> q).Yields P := by
  intro cursor a next h
  cases hcursor : p cursor with
  | none =>
      rw [run_orElse_none hcursor] at h
      exact hq _ _ _ h
  | some result =>
      rw [run_orElse hcursor] at h
      cases h
      exact hp _ _ _ hcursor

theorem Yields.chain {grow : α → Parse α} (ha : P a) (h : ∀ a, P a → (grow a).Yields P) :
    Yields (Parse.chain grow a) P := by
  intro cursor b last hlast
  fun_induction Parse.chain grow a cursor with
  | case1 start cursor hnone =>
      cases hlast
      exact ha
  | case2 start cursor grown next hgrown hleft ih => exact ih (h _ ha _ _ _ hgrown) hlast
  | case3 start cursor grown next hgrown hleft =>
      cases hlast
      exact ha

theorem Yields.many (h : p.Yields P) : Yields (many p) fun as => ∀ a ∈ as, P a := by
  intro cursor as last hlast
  fun_induction Parse.many p cursor generalizing as last with
  | case1 cursor hnone =>
      cases hlast
      exact fun _ h => absurd h List.not_mem_nil
  | case2 cursor first next hfirst hleft ih =>
      obtain ⟨⟨rest, rest'⟩, hrest, heq⟩ := Option.map_eq_some_iff.1 hlast
      cases heq
      exact List.forall_mem_cons.2 ⟨h _ _ _ hfirst, ih _ _ hrest⟩
  | case3 cursor first next hfirst hleft =>
      cases hlast
      exact fun _ h => absurd h List.not_mem_nil

theorem Yields.optional (h : p.Yields P) : (optional p).Yields fun found => ∀ a ∈ found, P a := by
  intro cursor found next hfound
  cases hcursor : p cursor with
  | none =>
      rw [run_optional_none hcursor] at hfound
      cases hfound
      exact nofun
  | some result =>
      rw [run_optional hcursor] at hfound
      cases hfound
      rintro a ⟨⟩
      exact h _ _ _ hcursor

end Parse

/-! ### Tokens -/

variable {cursor : Cursor} {word : String} {words : List String} {kind : Kind}

theorem run_mark_none (h : word.toList.isPrefixOf cursor.rest = false) :
    mark word cursor = none := by
  rw [mark, Parse.run_bind (p := ahead) rfl, h]
  rfl

theorem run_mark (h : word.toList.isPrefixOf cursor.rest = true) :
    mark word cursor = take .symbol word.length cursor := by
  rw [mark, Parse.run_bind (p := ahead) rfl, h]
  rfl

theorem run_keyword_none (h : String.ofList (nameAt cursor.rest) ≠ word) :
    keyword word cursor = none := by
  rw [keyword, Parse.run_bind (p := nextName) rfl, beq_false_of_ne h]
  rfl

theorem run_keyword (h : String.ofList (nameAt cursor.rest) = word) :
    keyword word cursor = take .symbol word.length cursor := by
  rw [keyword, Parse.run_bind (p := nextName) rfl, beq_iff_eq.2 h]
  rfl

theorem run_keywordOf_none (h : String.ofList (nameAt cursor.rest) ∉ words) :
    keywordOf words cursor = none := by
  have hcontains : words.contains (String.ofList (nameAt cursor.rest)) = false := by
    rwa [List.contains_eq_mem, decide_eq_false_iff_not]
  rw [keywordOf, Parse.run_bind (p := nextName) rfl, hcontains]
  rfl

theorem run_name (h : nameAt cursor.rest ≠ []) :
    name kind cursor = take kind (nameAt cursor.rest).length cursor := by
  have hname : (String.ofList (nameAt cursor.rest) != "") = true := by
    rw [bne_iff_ne, ne_eq, ← String.toList_inj, String.toList_ofList]
    exact h
  rw [name, Parse.run_bind (p := nextName) rfl, hname, ← String.length_ofList]
  rfl

/-- A token is a leaf in no role. -/
theorem yields_take (width : Nat) :
    (take kind width).Yields fun item => item.role = none ∧ ∃ text, item.node = .leaf {} kind text := by
  rintro cursor item next ⟨⟩
  exact ⟨rfl, _, rfl⟩

theorem yields_mark : (mark word).Yields fun item => item.role = none :=
  .last fun _ => .last fun _ => fun _ _ _ h => (yields_take _ _ _ _ h).1

theorem yields_keyword : (keyword word).Yields fun item => item.role = none :=
  .last fun _ => .last fun _ => fun _ _ _ h => (yields_take _ _ _ _ h).1

/-! ### Leads -/

/-- The comments of a lead, as they stand in front of a node. -/
def Lead.commentNodes (lead : Lead) : List Node :=
  lead.comments.map fun (gap, comment) => .leaf { gap } .comment comment

theorem Item.parts_eq (item : Item) : item.parts = item.lead.commentNodes ++
    [item.node.placedAt { gap := item.lead.gap, role := item.role }] := rfl

/-- No comment is a construct. -/
theorem Lead.filter_commentNodes (lead : Lead) :
    lead.commentNodes.filter (fun child => child.isNamed && child.kind != .comment) = [] := by
  refine List.filter_eq_nil_iff.2 fun child hchild => ?_
  obtain ⟨_, -, rfl⟩ := List.mem_map.1 hchild
  exact Bool.false_ne_true

/-- Blanks in front of a token are its lead. -/
theorem split_append (blanks : List Char) {rest : List Char} {c : Char}
    (hblanks : ∀ b ∈ blanks, isBlank b = true) (hc : isBlank c = false) (hslash : c ≠ '/') :
    Lead.split (blanks ++ c :: rest) = ({ gap := String.ofList blanks }, c :: rest) := by
  have hdrop : (blanks ++ c :: rest).dropWhile isBlank = c :: rest := by
    rw [List.dropWhile_append_of_pos hblanks, List.dropWhile_cons_of_neg (by rw [hc]; decide)]
  have htake : (blanks ++ c :: rest).takeWhile isBlank = blanks := by
    rw [List.takeWhile_append_of_pos hblanks, List.takeWhile_cons_of_neg (by rw [hc]; decide),
      List.append_nil]
  rw [Lead.split, htake]
  split
  · rename_i heq
    rw [hdrop] at heq
    cases heq
    exact absurd rfl hslash
  · rename_i heq
    rw [hdrop] at heq
    cases heq
    exact absurd rfl hslash
  · rw [hdrop]

/-! ### Fields of a construct -/

theorem role_branch (kind : Kind) (items : List Item) : (Item.branch kind items).role = none := by
  cases items <;> rfl

theorem kind_branch (kind : Kind) (items : List Item) : (Item.branch kind items).node.kind = kind := by
  cases items <;> rfl

theorem role_placedAt (node : Node) (place : Place) : (node.placedAt place).role = place.role := by
  cases node <;> rfl

theorem field?_placedAt (node : Node) (place : Place) (role : Role) :
    (node.placedAt place).field? role = node.field? role := by
  cases node <;> rfl

/-- The children of a construct are its items, and the comments in front of them. -/
theorem mem_children_branch {kind : Kind} {items : List Item} {child : Node}
    (h : child ∈ (Item.branch kind items).node.children) :
    (∃ gap comment, child = .leaf { gap } .comment comment) ∨
      ∃ item ∈ items, ∃ place, place.role = item.role ∧ child = item.node.placedAt place := by
  cases items with
  | nil => cases h
  | cons first rest =>
      rcases List.mem_cons.1 h with rfl | h
      · exact Or.inr ⟨first, List.mem_cons_self, _, rfl, rfl⟩
      · obtain ⟨item, hitem, hpart⟩ := List.mem_flatMap.1 h
        rcases List.mem_append.1 hpart with hcomment | hpart
        · obtain ⟨⟨gap, comment⟩, -, rfl⟩ := List.mem_map.1 hcomment
          exact Or.inl ⟨gap, comment, rfl⟩
        · exact Or.inr ⟨item, List.mem_cons_of_mem _ hitem, _, rfl, List.mem_singleton.1 hpart⟩

/-- The children of a construct that play a role are the items in this role. -/
theorem exists_of_field?_branch {kind : Kind} {items : List Item} {role : Role} {child : Node}
    (h : (Item.branch kind items).node.field? role = some child) :
    ∃ item ∈ items, item.role = some role ∧ ∃ place, child = item.node.placedAt place := by
  have hrole : child.role = some role := by
    simpa using List.find?_some h
  rcases mem_children_branch (Node.mem_of_field? h) with ⟨gap, comment, rfl⟩ | ⟨item, hitem, place, heq, rfl⟩
  · cases hrole
  · rw [role_placedAt, heq] at hrole
    exact ⟨item, hitem, hrole, place, rfl⟩

end RouteBinder.Grammar
