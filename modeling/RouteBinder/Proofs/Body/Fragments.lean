import RouteBinder.Body.Fragment
import RouteBinder.Proofs.Grammar.Parsers
import RouteBinder.Proofs.Source.Spliced

/-!
# RouteBinder.Proofs.Body.Fragments

**Fragments are blocks.** A body is parsed as the block of a function. Whatever the body is, a source that
begins like this and has no syntax errors begins with the declaration of that function
(`exists_block_of_parse?`), so a fragment is always a block of statements in its braces.

The other statements are refused at their first token. Only an expression could also begin like this, and
an expression has no body.
-/

namespace RouteBinder.Grammar

open Source Parse

/-! ### Expressions play no role -/

/-- An item in no role yet. -/
abbrev Unplaced (item : Item) : Prop := item.role = none

/-- Nested expressions are in no role. -/
structure Inner.Plain (inner : Inner) : Prop where
  expression : ∀ boundary, (inner.expression boundary).Yields Unplaced
  operation : ∀ level boundary, (inner.operation level boundary).Yields Unplaced
  operand : ∀ boundary, (inner.operand boundary).Yields Unplaced

variable {inner : Inner} {boundary : Boundary}

theorem yields_literal (kind : Kind) (measure : List Char → Option Nat) :
    (literal kind measure).Yields Unplaced :=
  .last fun source => by
    split
    · exact fun _ _ _ h => (yields_take _ _ _ _ h).1
    · exact .failure

theorem yields_access (item : Item) : (access inner item).Yields Unplaced :=
  .orElse
    (.last fun chained => by
      split
      · exact .last fun _ => .last fun _ => .pure (role_branch _ _)
      · exact .last fun _ => .last fun _ => .pure (role_branch _ _))
    (.last fun _ => .last fun _ => .last fun _ => .last fun _ => .pure (role_branch _ _))

theorem yields_nonNull (item : Item) : (nonNull item).Yields Unplaced :=
  .last fun _ => .last fun _ => .last fun _ => .pure (role_branch _ _)

theorem yields_call (item : Item) : (call inner boundary item).Yields Unplaced :=
  .orElse (.last fun _ => .last fun _ => .last fun _ => .pure (role_branch _ _))
    (.orElse (.last fun _ => .pure (role_branch _ _))
      (.last fun _ => .last fun _ => .last fun _ => .pure (role_branch _ _)))

theorem yields_retag_keyword (word : String) (kind : Kind) :
    (do return (← keyword word).retag kind).Yields Unplaced :=
  .bind yields_keyword fun _ h => .pure h

theorem yields_valueWord : valueWord.Yields Unplaced :=
  .orElse (yields_retag_keyword _ _) <| .orElse (yields_retag_keyword _ _) <|
    .orElse (yields_retag_keyword _ _) <| .orElse (yields_retag_keyword _ _) <|
    .orElse (yields_retag_keyword _ _) (yields_retag_keyword _ _)

theorem yields_metaProperty : metaProperty.Yields Unplaced :=
  .orElse (.last fun _ => .last fun _ => .last fun _ => .pure (role_branch _ _))
    (.last fun _ => .last fun _ => .last fun _ => .pure (role_branch _ _))

theorem yields_templateOf (kind : Kind) (substitution : Parse Item) :
    (templateOf kind substitution).Yields Unplaced :=
  .last fun _ => .last fun _ => .last fun _ => .last fun _ => .pure (role_branch _ _)

theorem yields_functionExpression : (functionExpression inner).Yields Unplaced :=
  .last fun _ => .last fun _ => .last fun _ => .last fun _ => .pure (role_branch _ _)

theorem yields_classExpression : (classExpression inner).Yields Unplaced :=
  .last fun _ => .last fun _ => .last fun _ => .pure (role_branch _ _)

theorem yields_parenthesized : (parenthesized inner).Yields Unplaced :=
  .last fun _ => .last fun _ => .last fun _ => .last fun _ => .pure (role_branch _ _)

theorem yields_leaf (kind : Kind) (width : Nat) : (take kind width).Yields Unplaced :=
  fun _ _ _ h => (yields_take _ _ _ _ h).1

theorem yields_importName : importName.Yields Unplaced :=
  .bind yields_keyword fun _ h => .last fun _ => .last fun _ => .pure h

theorem yields_plainPrimary : (plainPrimary inner).Yields Unplaced :=
  .orElse (yields_literal _ _) <| .orElse (yields_literal _ _) <|
    .orElse (yields_templateOf _ _) <| .orElse (yields_literal _ _) <|
    .orElse yields_functionExpression <| .orElse yields_classExpression <|
    .orElse yields_metaProperty <| .orElse yields_valueWord <| .orElse yields_importName <|
    .orElse (.last fun _ => .pure (role_branch _ _)) <|
    .orElse (.last fun _ => .pure (role_branch _ _)) <| .orElse yields_parenthesized <|
    .orElse (.last fun _ => .last fun _ => yields_leaf _ _)
      (.last fun _ => .last fun _ => yields_leaf _ _)

theorem yields_newExpression : (newExpression inner).Yields Unplaced :=
  .last fun _ => .last fun _ => .last fun _ => .last fun _ => .last fun _ =>
    .pure (role_branch _ _)

theorem yields_arrowFunction : (arrowFunction inner boundary).Yields Unplaced := by
  have hattempt : ∀ head, (arrowFunction.attempt inner boundary head).Yields Unplaced := fun head =>
    .last fun _ => .last fun _ => .last fun _ => .pure (role_branch _ _)
  exact .orElse (hattempt _) (.last fun _ => hattempt _)

theorem yields_postfixed : (postfixed inner boundary).Yields Unplaced :=
  .bind (.orElse yields_arrowFunction <| .orElse yields_metaProperty <|
      .orElse yields_newExpression yields_plainPrimary) fun _ h =>
    .chain h fun item _ => .last fun _ => .orElse (yields_access item) <|
      .orElse (yields_call item) (yields_nonNull item)

theorem yields_cast (item : Item) : (cast inner boundary item).Yields Unplaced :=
  .last fun _ => .orElse (.last fun _ => .last fun _ => .pure (role_branch _ _))
    (.last fun _ => .last fun _ => .pure (role_branch _ _))

theorem yields_operandRule : (operandRule inner boundary).Yields Unplaced :=
  .orElse (.last fun _ => .last fun _ => .pure (role_branch _ _)) <|
    .orElse (.last fun _ => .last fun _ => .pure (role_branch _ _)) <|
    .orElse (.last fun _ => .last fun _ => .last fun _ => .pure (role_branch _ _)) <|
    .orElse (.bind yields_postfixed fun _ h =>
      .orElse (.last fun _ => .last fun _ => .pure (role_branch _ _)) (.pure h))
    (.last fun _ => .last fun _ => .pure (role_branch _ _))

theorem yields_operationRule (h : inner.Plain) (level : Nat) :
    (operationRule inner level boundary).Yields Unplaced :=
  .bind (h.operand _) fun _ hfirst => .chain hfirst fun left _ =>
    .orElse (.last fun _ => .last fun _ => .last fun _ => .pure (role_branch _ _))
      (.last fun _ => yields_cast left)

theorem yields_assignment (target : Item) : (assignment inner boundary target).Yields Unplaced :=
  .last fun _ => .last fun _ => .orElse
    (.last fun _ => .last fun _ => .pure (role_branch _ _))
    (.last fun _ => .last fun _ => .last fun _ => .pure (role_branch _ _))

theorem yields_conditional {condition : Item} (h : condition.role = none) :
    (conditional inner boundary condition).Yields Unplaced :=
  .orElse (.last fun _ => .last fun _ => .last fun _ => .last fun _ => .last fun _ =>
    .pure (role_branch _ _)) (.pure h)

theorem yields_yieldExpression : (yieldExpression inner boundary).Yields Unplaced :=
  .last fun _ => .last fun _ => .last fun _ => by
    split
    · exact .last fun _ => .pure (role_branch _ _)
    · exact .last fun _ => .pure (role_branch _ _)

theorem yields_expressionRule (h : inner.Plain) :
    (expressionRule inner boundary).Yields Unplaced :=
  .orElse yields_yieldExpression <|
    .orElse (.last fun _ => .last fun _ => .last fun _ => .last fun _ =>
      .pure (role_branch _ _)) <|
    .orElse (.last fun _ => .last fun _ => .last fun _ => .pure (role_branch _ _)) <|
    .bind (h.operation _ _) fun _ hfirst =>
      .orElse (yields_assignment _) (yields_conditional hfirst)

theorem plain_ofDepth (depth : Nat) : (Inner.ofDepth depth).Plain := by
  induction depth with
  | zero => exact ⟨fun _ => .failure, fun _ _ => .failure, fun _ => .failure⟩
  | succ depth ih =>
      exact ⟨fun _ => yields_expressionRule ih, fun _ _ => yields_operationRule ih _,
        fun _ => yields_operandRule⟩

theorem yields_commaSeparated {p : Parse Item} (h : p.Yields Unplaced) :
    (commaSeparated p).Yields fun items => ∀ item ∈ items, item.role = none :=
  .bind h fun first hfirst =>
    .bind (.many (P := fun items => ∀ item ∈ items, item.role = none)
      (.bind yields_mark fun comma hcomma => .bind h fun next hnext =>
        .pure (List.forall_mem_cons.2 ⟨hcomma, List.forall_mem_singleton.2 hnext⟩))) fun rest hrest =>
    .pure (List.forall_mem_cons.2 ⟨hfirst, fun item hitem => by
      obtain ⟨items, hitems, hitem⟩ := List.mem_flatten.1 hitem
      exact hrest items hitems item hitem⟩)

theorem yields_expressions (h : inner.Plain) : (expressions inner boundary).Yields Unplaced :=
  .bind (yields_commaSeparated (h.expression _)) fun items hitems => by
    split
    · exact .pure (hitems _ List.mem_cons_self)
    · exact .pure (role_branch _ _)

theorem yields_semicolon :
    (semicolon boundary).Yields fun items => ∀ item ∈ items, item.role = none :=
  .last fun _ => by
    split
    · exact .pure (fun _ h => absurd h List.not_mem_nil)
    · exact .bind yields_mark fun _ h => .pure (List.forall_mem_singleton.2 h)

end RouteBinder.Grammar

namespace RouteBinder.Source.Node

instance (node : Node) : Decidable node.InBraces :=
  decidable_of_iff (node.kind = .statementBlock ∧
      node.children.head?.any (·.isSymbol "\x7b") ∧
      node.children.tail.getLast?.any (·.isSymbol "\x7d")) <| by
    constructor
    · rintro ⟨hkind, hopening, hclosing⟩
      refine ⟨hkind, ?_⟩
      cases hchildren : node.children with
      | nil =>
          rw [hchildren] at hopening
          cases hopening
      | cons opening rest =>
          rw [hchildren] at hopening hclosing
          rcases List.eq_nil_or_concat rest with rfl | ⟨parts, closing, rfl⟩
          · cases hclosing
          · rw [List.concat_eq_append] at hclosing ⊢
            rw [List.tail_cons, List.getLast?_concat] at hclosing
            exact ⟨opening, parts, closing, rfl, hopening, hclosing⟩
    · rintro ⟨hkind, opening, parts, closing, hchildren, hopening, hclosing⟩
      rw [hchildren, List.tail_cons, List.getLast?_concat]
      exact ⟨hkind, hopening, hclosing⟩

theorem InBraces.placedAt {node : Node} (h : node.InBraces) (place : Place) :
    (node.placedAt place).InBraces := by
  cases node with
  | leaf => obtain ⟨-, _, _, _, hchildren, -⟩ := h; cases hchildren
  | branch => exact ⟨h.1, h.2⟩

end RouteBinder.Source.Node

namespace RouteBinder.Grammar

open Source Parse

variable {inner : Inner} {cursor next : Cursor} {item : Item}

/-! ### Blocks -/

theorem isSymbol_placedAt {node : Node} {text : String} (h : node.isSymbol text = true)
    (place : Place) : (node.placedAt place).isSymbol text = true := by
  obtain ⟨_, rfl⟩ := Node.eq_leaf_of_isSymbol h
  exact Node.isSymbol_leaf place text

theorem yields_mark_isSymbol {word : String} :
    (mark word).Yields fun item => item.node.isSymbol word = true := by
  intro cursor item next h
  cases hprefix : word.toList.isPrefixOf cursor.rest with
  | false =>
      rw [run_mark_none hprefix] at h
      cases h
  | true =>
      rw [run_mark hprefix] at h
      cases h
      have htake : cursor.rest.take word.length = word.toList :=
        (List.prefix_iff_eq_take.1 (List.isPrefixOf_iff_prefix.1 hprefix)).symm
      dsimp only
      rw [htake, String.ofList_toList]
      exact Node.isSymbol_leaf _ _

/-- A block is written in braces. -/
theorem yields_statementBlock :
    (statementBlock inner).Yields fun item => item.node.InBraces :=
  .bind yields_mark_isSymbol fun opening hopening => .last fun statements =>
    .bind yields_mark_isSymbol fun closing hclosing => .pure
      { kind_eq := rfl
        braces := by
          refine ⟨opening.node.placedAt { role := opening.role },
            statements.flatMap Item.parts ++ closing.lead.commentNodes,
            closing.node.placedAt { gap := closing.lead.gap, role := closing.role }, ?_,
            isSymbol_placedAt hopening _, isSymbol_placedAt hclosing _⟩
          show _ :: (statements ++ [closing]).flatMap Item.parts = _
          rw [List.flatMap_append, List.flatMap_singleton, Item.parts_eq, List.append_assoc] }

/-! ### The function around a body -/

/-- A construct that can only have a block as its body. -/
structure Opens (item : Item) : Prop where
  isNamed : item.node.isNamed = true
  kind_ne : item.node.kind ≠ .comment
  body : ∀ block, item.node.field? .body = some block → block.InBraces

/-- The item is a construct, and what plays the role of its body has the property. -/
def BodyIs (P : Node → Prop) (item : Item) : Prop :=
  ∃ kind items, item = .branch kind items ∧ kind ≠ .symbol ∧ kind ≠ .comment ∧
    ∀ part ∈ items, part.role = some .body → P part.node

theorem BodyIs.exists_of_field? {P : Node → Prop} {block : Node} (h : BodyIs P item)
    (hblock : item.node.field? .body = some block) :
    ∃ node place, P node ∧ block = node.placedAt place := by
  obtain ⟨kind, items, rfl, -, -, hbody⟩ := h
  obtain ⟨part, hpart, hrole, place, rfl⟩ := exists_of_field?_branch hblock
  exact ⟨part.node, place, hbody part hpart hrole, rfl⟩

theorem BodyIs.opens (h : BodyIs Node.InBraces item) : Opens item := by
  refine ⟨?_, ?_, fun block hblock => ?_⟩
  · obtain ⟨kind, items, rfl, hnamed, -, -⟩ := h
    rw [Node.isNamed, kind_branch]
    exact bne_iff_ne.2 hnamed
  · obtain ⟨kind, items, rfl, -, hcomment, -⟩ := h
    rwa [kind_branch]
  · obtain ⟨node, place, hnode, rfl⟩ := h.exists_of_field? hblock
    exact hnode.placedAt place

theorem yields_functionHead : functionHead.Yields fun (head, _) => ∀ item ∈ head, item.role = none :=
  .bind (.optional yields_keyword) fun async hasync => .bind yields_keyword fun word hword =>
    .bind (.optional yields_mark) fun star hstar => .pure fun item hitem => by
      rcases List.mem_append.1 hitem with hitem | hitem
      · rcases List.mem_append.1 hitem with hitem | hitem
        · exact hasync item (Option.mem_toList.1 hitem)
        · exact List.mem_singleton.1 hitem ▸ hword
      · exact hstar item (Option.mem_toList.1 hitem)

theorem yields_callSignatureParts {boundary : Boundary} :
    (callSignatureParts inner boundary).Yields fun items =>
      ∀ item ∈ items, item.role ≠ some .body :=
  .last fun generics => .last fun parameters => .last fun result => .pure fun item hitem => by
    rcases List.mem_append.1 hitem with hitem | hitem
    · rcases List.mem_append.1 hitem with hitem | hitem
      · obtain ⟨_, -, rfl⟩ := Option.map_eq_some_iff.1 (Option.mem_toList.1 hitem)
        exact nofun
      · obtain rfl := List.mem_singleton.1 hitem
        exact nofun
    · obtain ⟨_, -, rfl⟩ := Option.map_eq_some_iff.1 (Option.mem_toList.1 hitem)
      exact nofun

/-- In front of the body of a function, nothing plays the role of one. -/
theorem role_ne_body_of_mem {head signature : List Item} {name : Item}
    (hhead : ∀ item ∈ head, item.role = none) (hsignature : ∀ item ∈ signature, item.role ≠ some .body)
    (hitem : item ∈ head ++ [name.as .name] ++ signature) : item.role ≠ some .body := by
  rcases List.mem_append.1 hitem with hitem | hitem
  · rcases List.mem_append.1 hitem with hitem | hitem
    · rw [hhead item hitem]
      exact nofun
    · obtain rfl := List.mem_singleton.1 hitem
      exact nofun
  · exact hsignature item hitem

theorem yields_functionDeclaration {P : Node → Prop}
    (h : (statementBlock inner).Yields fun item => P item.node) :
    (functionDeclaration inner).Yields (BodyIs P) :=
  .bind yields_functionHead fun (head, isGenerator) hhead => .last fun name =>
    .bind yields_callSignatureParts fun signature hsignature => .last fun block => by
      split
      · exact .bind h fun body hbody => .pure <| by
          refine ⟨_, _, rfl, ?_, ?_, fun item hitem hrole => ?_⟩
          · split <;> decide
          · split <;> decide
          · rcases List.mem_append.1 hitem with hitem | hitem
            · exact absurd hrole (role_ne_body_of_mem hhead hsignature hitem)
            · exact List.mem_singleton.1 hitem ▸ hbody
      · exact .last fun _ => .bind yields_semicolon fun ending hending => .pure
          ⟨_, _, rfl, by decide, by decide, fun item hitem hrole => by
            rcases List.mem_append.1 hitem with hitem | hitem
            · exact absurd hrole (role_ne_body_of_mem hhead hsignature hitem)
            · rw [hending item hitem] at hrole
              cases hrole⟩

theorem yields_expressionStatement {P : Node → Prop} (h : inner.Plain) :
    (expressionStatement inner).Yields (BodyIs P) :=
  .last fun _ => .last fun _ => .bind (yields_expressions h) fun value hvalue =>
    .bind yields_semicolon fun ending hending => .pure
      ⟨_, _, rfl, by decide, by decide, fun item hitem hrole => by
        have hnone : item.role = none := List.forall_mem_cons.2 ⟨hvalue, hending⟩ item hitem
        rw [hnone] at hrole
        cases hrole⟩

/-- A statement that begins with `async` in front of another word is a function or an expression. -/
theorem function_or_expression_of_statementRule {rest : List Char}
    (hrest : cursor.rest = "async function".toList ++ ' ' :: rest)
    (h : statementRule inner cursor = some (item, next)) :
    functionDeclaration inner cursor = some (item, next) ∨
      expressionStatement inner cursor = some (item, next) := by
  have hname : String.ofList (nameAt cursor.rest) = "async" := by
    rw [hrest]
    rfl
  have hword : ∀ {word : String}, word ≠ "async" → keyword word cursor = none :=
    fun hne => run_keyword_none (by rw [hname]; exact hne.symm)
  have hbegin : ∀ {word : String} {α : Type} {f : Item → Parse α}, word ≠ "async" →
      (keyword word >>= f) cursor = none := fun hne => run_bind_none (hword hne)
  have hdecorators : decorators inner cursor = some ([], cursor) :=
    run_many_none (run_bind_none (run_mark_none (by rw [hrest]; rfl)))
  have hdecorated : ((do
      let decorators ← many (decorator inner)
      require !decorators.isEmpty
      classDeclaration inner decorators) : Parse Item) cursor = none :=
    (run_bind hdecorators).trans rfl
  have hexport : exportStatement inner cursor = none :=
    (run_bind hdecorators).trans (hbegin (by decide))
  -- Behind `async` stands no colon.
  have hlabel : labeledStatement inner cursor = none := by
    have hlead : Lead.split (cursor.rest.drop 5) =
        ({ gap := " " }, "function".toList ++ ' ' :: rest) := by
      rw [hrest]
      exact split_append [' '] (List.forall_mem_singleton.2 (by decide)) (by decide) (by decide)
    have hstart : name .statementIdentifier cursor =
        some (⟨cursor.lead, none, .leaf {} .statementIdentifier "async"⟩,
          cursor.past 5 (cursor.rest.drop 5)) := by
      rw [run_name (by rw [hrest]; exact List.cons_ne_nil _ _), take, hrest]
      rfl
    refine (run_bind hstart).trans (run_bind_none (run_mark_none ?_))
    rw [Cursor.past, hlead]
    rfl
  have hplain : plainDeclaration inner [] cursor = functionDeclaration inner cursor := by
    have hclass : classDeclaration inner [] cursor = none :=
      (run_bind (run_optional_none (hword (by decide)))).trans (hbegin (by decide))
    have henum : enumDeclaration inner cursor = none :=
      (run_bind (run_optional_none (hword (by decide)))).trans (hbegin (by decide))
    have hvariable : variableDeclaration inner cursor = none :=
      run_bind_none (run_keywordOf_none (by rw [hname]; decide))
    have htype : typeAliasDeclaration inner cursor = none := hbegin (by decide)
    have hinterface : interfaceDeclaration inner cursor = none := hbegin (by decide)
    have hnamespace : namespaceDeclaration inner cursor = none := hbegin (by decide)
    have hmodule : moduleParts inner "module" .moduleDeclaration cursor = none :=
      hbegin (by decide)
    have halias : importAlias cursor = none := hbegin (by decide)
    rw [plainDeclaration, run_orElse_right_none]
    rw [run_orElse_none hclass, run_orElse_none henum, run_orElse_none hvariable,
      run_orElse_none htype, run_orElse_none hinterface, run_orElse_none hnamespace,
      run_orElse_none hmodule, halias]
  have hdeclaration : declaration inner [] cursor = functionDeclaration inner cursor := by
    have hambient : ambientDeclaration inner cursor = none := hbegin (by decide)
    rw [declaration, run_orElse_right_none hambient, hplain]
  have hempty : emptyStatement cursor = none := run_bind_none (run_mark_none (by rw [hrest]; rfl))
  have hblock : statementBlock inner cursor = none :=
    run_bind_none (run_mark_none (by rw [hrest]; rfl))
  have himport : importStatement inner cursor = none := hbegin (by decide)
  have hif : ifStatement inner cursor = none := hbegin (by decide)
  have hfor : forStatement inner cursor = none := hbegin (by decide)
  have hforIn : forInStatement inner cursor = none := hbegin (by decide)
  have hwhile : whileStatement inner cursor = none := hbegin (by decide)
  have hdo : doStatement inner cursor = none := hbegin (by decide)
  have hwith : withStatement inner cursor = none := hbegin (by decide)
  have hswitch : switchStatement inner cursor = none := hbegin (by decide)
  have htry : tryStatement inner cursor = none := hbegin (by decide)
  have hbreak : jumpStatement "break" .breakStatement cursor = none := hbegin (by decide)
  have hcontinue : jumpStatement "continue" .continueStatement cursor = none := hbegin (by decide)
  have hreturn : returnStatement inner cursor = none := hbegin (by decide)
  have hthrow : throwStatement inner cursor = none := hbegin (by decide)
  have hdebugger : debuggerStatement cursor = none := hbegin (by decide)
  have hnamespace : namespaceStatement inner cursor = none := run_bind_none (hbegin (by decide))
  rw [statementRule, run_orElse_none hempty, run_orElse_none hblock, run_orElse_none hexport,
    run_orElse_none himport, run_orElse_none hif, run_orElse_none hfor, run_orElse_none hforIn,
    run_orElse_none hwhile, run_orElse_none hdo, run_orElse_none hwith, run_orElse_none hswitch,
    run_orElse_none htry, run_orElse_none hbreak, run_orElse_none hcontinue,
    run_orElse_none hreturn, run_orElse_none hthrow, run_orElse_none hdebugger,
    run_orElse_none hnamespace] at h
  rcases orElse_eq_some h with h | h
  · rw [hdeclaration] at h
    exact Or.inl h
  · rw [run_orElse_none hdecorated, run_orElse_none hlabel] at h
    exact Or.inr h

theorem bodyIs_of_statementRule {P : Node → Prop} {rest : List Char} (hinner : inner.Plain)
    (hblock : (statementBlock inner).Yields fun item => P item.node)
    (hrest : cursor.rest = "async function".toList ++ ' ' :: rest)
    (h : statementRule inner cursor = some (item, next)) : BodyIs P item := by
  rcases function_or_expression_of_statementRule hrest h with h | h
  · exact yields_functionDeclaration hblock _ _ _ h
  · exact yields_expressionStatement hinner _ _ _ h

theorem opens_of_statementRule {rest : List Char} (hinner : inner.Plain)
    (hrest : cursor.rest = "async function".toList ++ ' ' :: rest)
    (h : statementRule inner cursor = some (item, next)) : Opens item :=
  (bodyIs_of_statementRule hinner yields_statementBlock hrest h).opens

/-- A program begins with what its first statement consists of. -/
theorem exists_of_programRule {program : Node} (hline : hashBangLine cursor = none)
    (hne : cursor.rest ≠ []) (h : programRule inner cursor = some (program, next)) :
    ∃ first after rest, inner.statement cursor = some (first, after) ∧
      program = .branch {} .program (first.parts ++ rest) := by
  rw [programRule, run_bind (run_optional_none hline)] at h
  have hempty : cursor.rest.isEmpty = false := List.isEmpty_eq_false_iff.2 hne
  cases hmany : many inner.statement cursor with
  | none =>
      rw [run_bind_none hmany] at h
      cases h
  | some result =>
      obtain ⟨statements, last⟩ := result
      rw [run_bind hmany] at h
      dsimp only at h
      rw [many] at hmany
      -- Without a statement, the whole source would be left.
      split at hmany
      · cases hmany
        rw [hempty] at h
        cases h
      · rename_i first after hfirst
        split at hmany
        · obtain ⟨⟨rest, _⟩, -, heq⟩ := Option.map_eq_some_iff.1 hmany
          cases heq
          split at h
          · cases h
            exact ⟨first, after, _, hfirst, congrArg (Node.branch {} .program)
              (List.append_assoc first.parts (rest.flatMap Item.parts) _)⟩
          · cases h
        · cases hmany
          rw [hempty] at h
          cases h

/-- The comments in front of a construct do not count. -/
theorem firstNamed?_parts {kind : Kind} {rest : List Node} (h : Opens item) :
    ∃ place, (Node.branch {} kind (item.parts ++ rest)).firstNamed? =
      some (item.node.placedAt place) := by
  have hkind : ∀ place, (item.node.placedAt place).kind = item.node.kind := fun place => by
    cases item.node <;> rfl
  refine ⟨{ gap := item.lead.gap, role := item.role }, ?_⟩
  have hitem : ((item.node.placedAt { gap := item.lead.gap, role := item.role }).isNamed &&
      (item.node.placedAt { gap := item.lead.gap, role := item.role }).kind != .comment) = true := by
    have hnamed := h.isNamed
    rw [Node.isNamed] at hnamed
    rw [Node.isNamed, hkind, hnamed, Bool.true_and]
    exact bne_iff_ne.2 h.kind_ne
  show ((item.parts ++ rest).filter fun child => child.isNamed && child.kind != .comment).head? = _
  rw [Item.parts_eq, List.append_assoc, List.filter_append, item.lead.filter_commentNodes,
    List.nil_append, List.singleton_append, List.filter_cons, if_pos hitem]
  rfl

/-- The first construct of a program that begins like the function around a body has a block for its
body, with whatever holds of all blocks of the grammar. -/
theorem exists_block_of_parse? {P : Node → Prop} {source : String} {rest : List Char}
    {program function block : Node}
    (hblocks : ∀ depth, (statementBlock (Inner.ofDepth depth)).Yields fun item => P item.node)
    (hsource : source.toList = "async function".toList ++ ' ' :: rest)
    (hparse : parse? source = some program) (hfunction : program.firstNamed? = some function)
    (hblock : function.field? .body = some block) : ∃ node place, P node ∧ block = node.placedAt place := by
  rw [parse?] at hparse
  obtain ⟨⟨_, last⟩, hprogram, rfl⟩ := Option.map_eq_some_iff.1 hparse
  have hlead : Lead.split source.toList = ({}, source.toList) := by
    rw [hsource]
    exact split_append [] nofun (by decide) (by decide)
  have hrest : (Cursor.start source.toList).rest = "async function".toList ++ ' ' :: rest := by
    rw [Cursor.start, hlead, hsource]
  generalize Cursor.start source.toList = cursor at hprogram hrest
  have hline : hashBangLine cursor = none := by
    rw [hashBangLine, run_bind (p := ahead) rfl, hrest]
    rfl
  obtain ⟨first, after, parts, hfirst, rfl⟩ := exists_of_programRule hline
    (by rw [hrest]; exact List.cons_ne_nil _ _) hprogram
  obtain ⟨place, hplace⟩ :=
    firstNamed?_parts (opens_of_statementRule (plain_ofDepth _) hrest hfirst)
  rw [hplace] at hfunction
  obtain rfl := Option.some.inj hfunction
  rw [field?_placedAt] at hblock
  exact (bodyIs_of_statementRule (plain_ofDepth _) (hblocks _) hrest hfirst).exists_of_field? hblock

end RouteBinder.Grammar

namespace RouteBinder.Body

/-- A fragment is a block of statements, with whatever holds of all blocks of the grammar. -/
theorem Fragment.exists_of_parse? {P : Source.Node → Prop} {body : String} {fragment : Fragment}
    (hblocks : ∀ depth, (Grammar.statementBlock (Grammar.Inner.ofDepth depth)).Yields
      fun item => P item.node)
    (h : Fragment.parse? body = some fragment) :
    ∃ node place, P node ∧ fragment.block = node.placedAt place := by
  rw [Fragment.parse?, Option.bind_eq_bind, Option.bind_eq_some_iff] at h
  obtain ⟨program, hprogram, h⟩ := h
  obtain ⟨function, hfunction, h⟩ := Option.bind_eq_some_iff.1 h
  obtain ⟨block, hblock, h⟩ := Option.bind_eq_some_iff.1 h
  cases h
  have hfront : "async function __handler__() \x7b\n".toList =
      "async function".toList ++ ' ' :: "__handler__() \x7b\n".toList := by
    decide +kernel
  have hsource : ∃ rest, (Fragment.wrapped body).toList =
      "async function".toList ++ ' ' :: rest := by
    unfold Fragment.wrapped
    generalize "\n\x7d\n" = closing
    rw [String.toList_append, String.toList_append, hfront, List.append_assoc, List.append_assoc,
      List.cons_append]
    exact ⟨_, rfl⟩
  obtain ⟨rest, hsource⟩ := hsource
  exact Grammar.exists_block_of_parse? hblocks hsource hprogram hfunction hblock

/-- A fragment is a block of statements in its braces. -/
theorem Fragment.inBraces_of_parse? {body : String} {fragment : Fragment}
    (h : Fragment.parse? body = some fragment) : fragment.block.InBraces := by
  obtain ⟨node, place, hnode, hblock⟩ :=
    Fragment.exists_of_parse? (fun _ => Grammar.yields_statementBlock) h
  rw [hblock]
  exact hnode.placedAt place

/-- So is what is recovered of a body with syntax errors. -/
theorem Fragment.inBraces_parse [Recovery] (body : String) : (Fragment.parse body).block.InBraces := by
  cases h : Fragment.parse? body with
  | none =>
      rw [Fragment.parse, h, Option.getD_none]
      exact Recovery.inBraces_recovered body
  | some fragment =>
      rw [Fragment.parse_of_parse? h]
      exact Fragment.inBraces_of_parse? h

end RouteBinder.Body
