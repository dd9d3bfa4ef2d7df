import RouteBinder.Proofs.Analysis.ReplayedResponses
import RouteBinder.Proofs.Body.DroppedReads
import RouteBinder.Proofs.Body.Fragments
import RouteBinder.Proofs.Source.DeclaredNames
import RouteBinder.Proofs.Source.Spliced
import RouteBinder.Proofs.Text.Margins

/-!
# RouteBinder.Proofs.Body.SparedLiterals

**Literals in rewritten bodies.** A rule makes a new text of the block of a body, braces included, and the
text between the braces is tidied. No rule touches the braces (`Rule.KeepsBraces`), so what a rule spares
(`Spares`) stands between them, and after tidying it stands in the new body up to blanks next to its line
breaks (`Survives`).

Rules are applied one after the other, and each one looks at what the one before it made. `SparedBy` follows
a literal through them: wherever its text still stands, the next rule spares a literal with this text. Then
it stands in the last body, too (`SparedBy.survives_applyAll`).
-/

namespace RouteBinder.Source.Node

open Text

variable {literal node : Node} {text : String}

/-- A string or a template, in its quotes. -/
structure IsLiteral (node : Node) : Prop where
  kind_mem : node.kind ∈ [Kind.string, .templateString]
  quotes : ∃ quote content, quote ∈ ['\x27', '\x22', '\x60'] ∧
    node.text.toList = quote :: (content ++ [quote])

instance (node : Node) : Decidable node.IsLiteral :=
  decidable_of_iff (node.kind ∈ [Kind.string, .templateString] ∧
      ['\x27', '\x22', '\x60'].any fun quote =>
        node.text.toList == quote :: (node.text.toList.tail.dropLast ++ [quote])) <| by
    constructor
    · rintro ⟨hkind, h⟩
      obtain ⟨quote, hquote, htext⟩ := List.any_eq_true.1 h
      exact ⟨hkind, quote, _, hquote, beq_iff_eq.1 htext⟩
    · rintro ⟨hkind, quote, content, hquote, htext⟩
      refine ⟨hkind, List.any_eq_true.2 ⟨quote, hquote, beq_iff_eq.2 ?_⟩⟩
      rw [htext, List.tail_cons, List.dropLast_concat]

/-- Quotes are neither blanks nor braces. -/
theorem of_mem_quotes {c : Char} (h : c ∈ ['\x27', '\x22', '\x60']) :
    isBlank c = false ∧ c ≠ '\x7b' ∧ c ≠ '\x7d' := by
  simp only [List.mem_cons, List.not_mem_nil, or_false] at h
  rcases h with rfl | rfl | rfl <;> decide

/-- There are no blanks at the ends of a literal. -/
theorem IsLiteral.solid (h : literal.IsLiteral) : Solid isBlank literal.text.toList := by
  obtain ⟨quote, content, hquote, htext⟩ := h.quotes
  rw [htext]
  refine ⟨List.cons_ne_nil _ _, fun c hc => ?_, fun c hc => ?_⟩
  · exact Option.some.inj hc ▸ (of_mem_quotes hquote).1
  · rw [← List.cons_append, List.getLast?_concat] at hc
    exact Option.some.inj hc ▸ (of_mem_quotes hquote).1

/-- The text stands between braces. -/
def Braced (text : String) : Prop := ∃ content, text.toList = '\x7b' :: (content ++ ['\x7d'])

/-- A literal in a text between braces stands between them. -/
theorem IsLiteral.infix_inside (h : literal.IsLiteral) (hbraced : Braced text)
    (hpart : literal.text.toList <:+: text.toList) :
    literal.text.toList <:+: (inside text).toList := by
  obtain ⟨quote, quoted, hquote, htext⟩ := h.quotes
  obtain ⟨content, hcontent⟩ := hbraced
  have hinside : (inside text).toList = content := by
    rw [inside, String.toList_ofList, hcontent, List.drop_one, List.tail_cons,
      List.dropLast_concat]
  obtain ⟨-, hopening, hclosing⟩ := of_mem_quotes hquote
  rw [hinside]
  rw [hcontent, List.infix_cons_iff, List.infix_concat_iff] at hpart
  rcases hpart with hfront | hback | hmiddle
  · rw [htext, List.cons_prefix_cons] at hfront
    exact absurd hfront.1 hopening
  · obtain ⟨front, hfront⟩ := hback
    have hlast := congrArg List.getLast? hfront
    rw [htext, ← List.cons_append, ← List.append_assoc, List.getLast?_concat,
      List.getLast?_concat] at hlast
    exact absurd (Option.some.inj hlast) hclosing
  · exact hmiddle

end RouteBinder.Source.Node

namespace RouteBinder.Body

open Source Text Node Analysis

variable {literal : Node} {fragment : Fragment} {rule : Rule} {rules : List Rule}
  {substitution : Substitution} {text body : String}

/-! ### Rules and braces -/

/-- Rules change what is between the braces of a block. -/
def Rule.KeepsBraces (rule : Rule) : Prop :=
  ∀ fragment, fragment.block.InBraces → Braced (rule fragment)

theorem braced_assemble (gap gap' : String) (parts : List (String × String)) :
    Braced (assemble ((gap, "\x7b") :: (parts ++ [(gap', "\x7d")]))) := by
  refine ⟨(String.join (parts.map fun part => part.1 ++ part.2)).toList ++ gap'.toList, ?_⟩
  rw [assemble, String.toList_append, String.toList_join, String.toList_join, List.map_append,
    List.flatMap_append]
  simp only [List.map_cons, List.map_nil, List.flatMap_cons, List.flatMap_nil, List.append_nil,
    String.toList_append, List.append_assoc]
  rfl

/-- The constructs that rules replace. -/
def replacedKinds : List Kind :=
  [.callExpression, .newExpression, .memberExpression, .awaitExpression, .lexicalDeclaration,
    .variableDeclaration]

theorem keepsBraces_ofSubstitution
    (h : ∀ node : Node, node.kind ∉ replacedKinds → substitution.Leaves node) :
    (Rule.ofSubstitution substitution).KeepsBraces := by
  rintro ⟨block⟩ ⟨hkind, opening, parts, closing, hchildren, hopening, hclosing⟩
  obtain ⟨place, rfl⟩ := Node.eq_leaf_of_isSymbol hopening
  obtain ⟨place', rfl⟩ := Node.eq_leaf_of_isSymbol hclosing
  have hsymbol : ∀ place text, substitution.Leaves (.leaf place .symbol text) := fun _ _ =>
    h _ (by rw [Node.kind]; decide)
  cases block with
  | leaf => cases hchildren
  | branch blockPlace kind children =>
      obtain rfl : kind = .statementBlock := hkind
      obtain rfl : children = _ := hchildren
      show Braced (splice substitution _)
      have hblock : ∀ parts, substitution.Leaves (.branch blockPlace .statementBlock parts) :=
        fun _ => h _ (by rw [Node.kind]; decide)
      rw [splice_branch (hblock _).answer?_eq_none, List.map_cons, List.map_append, List.map_singleton,
        splice_leaf (hsymbol _ _).answer?_eq_none, splice_leaf (hsymbol _ _).answer?_eq_none]
      exact braced_assemble _ _ _

theorem keepsBraces_textWith {replace? : Fragment → Nat → Option String}
    (h : ∀ fragment place child, fragment.block.children[place]? = some child →
      child.isNamed = false → replace? fragment place = none) :
    Rule.KeepsBraces fun fragment => fragment.block.textWith (replace? fragment) := by
  rintro ⟨block⟩ ⟨hkind, opening, parts, closing, hchildren, hopening, hclosing⟩
  obtain ⟨place, rfl⟩ := Node.eq_leaf_of_isSymbol hopening
  obtain ⟨place', rfl⟩ := Node.eq_leaf_of_isSymbol hclosing
  have hfirst := h ⟨block⟩ 0 _ (by rw [hchildren]; rfl) rfl
  have hlast := h ⟨block⟩ (parts.length + 1) (.leaf place' .symbol "\x7d")
    (by rw [hchildren, List.getElem?_cons_succ, List.getElem?_concat_length]) rfl
  cases block with
  | leaf => cases hchildren
  | branch blockPlace kind children =>
      obtain rfl : children = _ := hchildren
      dsimp only
      rw [textWith_branch, List.mapIdx_cons, List.mapIdx_append, List.mapIdx_singleton, hfirst,
        Nat.zero_add, hlast]
      exact braced_assemble _ _ _

theorem ne_of_not_replaced {node : Node} {kind : Kind} (h : node.kind ∉ replacedKinds)
    (hkind : kind ∈ replacedKinds) : node.kind ≠ kind := fun heq => h (heq ▸ hkind)

theorem not_isVariableDeclaration {node : Node} (h : node.kind ∉ replacedKinds) :
    node.isVariableDeclaration = false := by
  rw [isVariableDeclaration, Bool.or_eq_false_iff, beq_eq_false_iff_ne, beq_eq_false_iff_ne]
  exact ⟨ne_of_not_replaced h (by decide), ne_of_not_replaced h (by decide)⟩

theorem keepsBraces_unwrapSerialize : unwrapSerialize.KeepsBraces :=
  keepsBraces_ofSubstitution fun node h write =>
    if_neg fun hkind => ne_of_not_replaced h (by decide) (beq_iff_eq.1 hkind)

theorem keepsBraces_unwrapResponse : unwrapResponse.KeepsBraces :=
  keepsBraces_ofSubstitution fun node h write => by
    have hparts : node.callParts? = none := by
      rw [callParts?, Option.map_eq_none_iff]
      split
      · rename_i hkind
        exact absurd hkind (ne_of_not_replaced h (by decide))
      · rename_i hkind
        exact absurd hkind (ne_of_not_replaced h (by decide))
      · rfl
    rw [responseSubstitution, hparts]

theorem keepsBraces_replaceRequestAccessors (request : String) :
    (replaceRequestAccessors request).KeepsBraces :=
  keepsBraces_ofSubstitution fun node h write =>
    if_neg fun hkind => ne_of_not_replaced h (by decide) (beq_iff_eq.1 hkind)

theorem keepsBraces_replacePayloadReads (request payload : String) :
    (replacePayloadReads request payload).KeepsBraces :=
  keepsBraces_ofSubstitution fun node h write => by
    rw [not_isVariableDeclaration h, if_neg Bool.false_ne_true]
    split
    · rename_i hkind
      exact absurd hkind (ne_of_not_replaced h (by decide))
    · rename_i hkind
      exact absurd hkind (ne_of_not_replaced h (by decide))
    · rename_i hkind
      exact absurd hkind (ne_of_not_replaced h (by decide))
    · rfl

theorem keepsBraces_substituteRouteParams (params : String) (names : List String) :
    (substituteRouteParams params names).KeepsBraces :=
  keepsBraces_ofSubstitution fun node h write => by
    rw [not_isVariableDeclaration h, if_neg Bool.false_ne_true]
    exact if_neg fun hkind =>
      ne_of_not_replaced h (by decide) (beq_iff_eq.1 (Bool.and_eq_true_iff.1 hkind).1)

/-- Rules for statements leave punctuation alone, and braces are punctuation. -/
theorem keepsBraces_ofStatements {replace? : Fragment → Nat → Node → Option String}
    (h : ∀ fragment place child, fragment.block.children[place]? = some child →
      child.isNamed = false → replace? fragment place child = none) :
    (Rule.ofStatements replace?).KeepsBraces :=
  keepsBraces_textWith fun fragment place child hchild hnamed => by
    rw [hchild]
    exact h fragment place child hchild hnamed

theorem kind_of_not_isNamed {node : Node} (h : node.isNamed = false) : node.kind = .symbol := by
  rwa [isNamed, bne_eq_false_iff_eq] at h

theorem keepsBraces_stripReturnComma : stripReturnComma.KeepsBraces :=
  keepsBraces_ofStatements fun fragment place child hchild hnamed => by
    have hkind : child.kind ≠ .returnStatement := by
      rw [kind_of_not_isNamed hnamed]
      decide
    have hreturn : returnFirst? child = none := by
      rw [returnFirst?]
      split
      · rfl
      · exact if_neg fun h => hkind (beq_iff_eq.1 (Bool.and_eq_true_iff.1 h).1)
    rw [hreturn, ite_self]

theorem keepsBraces_stripMarker : stripMarker.KeepsBraces :=
  keepsBraces_ofStatements fun fragment place child hchild hnamed => by
    refine if_neg fun h => ?_
    have hplace := beq_iff_eq.1 (Bool.and_eq_true_iff.1 h).2
    rw [firstStatementPlace?, eq_comm, List.findIdx?_eq_some_iff_getElem] at hplace
    obtain ⟨hlt, hfirst, -⟩ := hplace
    rw [List.getElem?_eq_getElem hlt] at hchild
    rw [Option.some.inj hchild, hnamed] at hfirst
    cases hfirst

theorem keepsBraces_replacePageVariable (page replacement : String) :
    (replacePageVariable page replacement).KeepsBraces :=
  keepsBraces_ofStatements fun fragment place child hchild hnamed => by
    have hkind : child.kind ∉ replacedKinds := by
      rw [kind_of_not_isNamed hnamed]
      decide
    refine if_neg fun h => ?_
    rw [not_isVariableDeclaration hkind] at h
    cases h

/-- Only statements are dropped. -/
theorem exists_of_mem_unusedReads {request : String} {block : Node} {place : Nat}
    (h : place ∈ unusedReads request block) :
    ∃ statement, block.children[place]? = some statement ∧ statement.isNamed = true := by
  obtain ⟨statement, hdropped⟩ := allDropped_unusedReads request block place h
  obtain ⟨hchild, hnamed, -⟩ := mem_placedStatements.1 hdropped.placed
  exact ⟨statement, hchild, hnamed⟩

theorem keepsBraces_dropUnusedRequestReads (request : String) :
    (dropUnusedRequestReads request).KeepsBraces :=
  keepsBraces_textWith fun fragment place child hchild hnamed => by
    refine if_neg fun h => ?_
    obtain ⟨statement, hstatement, hstatementNamed⟩ :=
      exists_of_mem_unusedReads (List.contains_iff_mem.1 h)
    rw [hchild] at hstatement
    rw [← Option.some.inj hstatement, hnamed] at hstatementNamed
    cases hstatementNamed

theorem keepsBraces_extractionRules : ∀ rule ∈ extractionRules, rule.KeepsBraces := by
  simp only [extractionRules, List.forall_mem_cons, List.not_mem_nil, false_implies, implies_true,
    and_true]
  exact ⟨keepsBraces_unwrapSerialize, keepsBraces_unwrapResponse, keepsBraces_stripReturnComma,
    keepsBraces_stripMarker⟩

/-! ### Literals that a rule spares -/

/-- The rule neither replaces nor drops the literal: nothing in it is replaced, and neither is anything
around it, unless the replacement writes it down again. -/
inductive Spares (rule : Rule) (fragment : Fragment) (literal : Node) : Prop where
  /-- By a rule that replaces constructs wherever they stand. -/
  | kept {substitution : Substitution} (hrule : rule fragment = fragment.block.splice substitution)
      (h : Kept substitution literal fragment.block)
  /-- By a rule that replaces statements: that of the literal stays, or its replacement has the literal
  in it. -/
  | placed {replace? : Nat → Option String} {place : Nat} {statement : Node}
      (hrule : rule fragment = fragment.block.textWith replace?)
      (hstatement : fragment.block.children[place]? = some statement)
      (hliteral : literal.AtOrInside statement)
      (h : ∀ replacement, replace? place = some replacement →
        literal.text.toList <:+: replacement.toList)

theorem Spares.infix_text (h : Spares rule fragment literal) :
    literal.text.toList <:+: (rule fragment).toList := by
  cases h with
  | kept hrule h => exact hrule ▸ h.infix_splice
  | @placed replace? place statement hrule hstatement hliteral h =>
      rw [hrule]
      refine List.IsInfix.trans ?_ (infix_textWith hstatement)
      cases hplace : replace? place with
      | none => exact hliteral.infix_text
      | some replacement => exact h replacement hplace

theorem textWith_none (node : Node) : (node.textWith fun _ => none) = node.text := by
  cases node with
  | leaf => exact textWith_leaf
  | branch =>
      rw [textWith_branch, text_branch]
      exact congrArg assemble
        (List.ext_getElem? fun i => by rw [List.getElem?_mapIdx, List.getElem?_map]; rfl)

theorem braced_text {block : Node} (h : block.InBraces) : Braced block.text := by
  have hkept := keepsBraces_textWith (fun _ _ _ _ _ => rfl) ⟨block⟩ h
  dsimp only at hkept
  rwa [textWith_none] at hkept

/-- A rule that changes nothing spares everything. -/
theorem Spares.of_unchanged (hrule : rule fragment = fragment.block.text)
    (h : literal.Inside fragment.block) : Spares rule fragment literal := by
  obtain ⟨statement, hliteral, hstatement⟩ := Relation.TransGen.tail'_iff.1 h
  obtain ⟨place, hplace⟩ := List.getElem?_of_mem hstatement
  exact .placed (hrule.trans (textWith_none _).symm) hplace hliteral fun _ h => nomatch h

theorem infix_toList_append (front text back : String) :
    text.toList <:+: (front ++ text ++ back).toList := by
  rw [String.toList_append, String.toList_append]
  exact (List.suffix_append _ _).isInfix.trans (List.prefix_append _ _).isInfix

/-- A response is written as its payload, or as an expression with the payload in it. -/
theorem writes_responseSubstitution {response value : Node} {rest : List Node}
    (h : Responds response (value :: rest)) : responseSubstitution.Writes response value := by
  intro write
  refine ⟨_, responseSubstitution_of_responds h write, ?_⟩
  rw [List.head?_cons, Option.map_some, Option.getD_some]
  split
  · exact List.infix_rfl
  · exact infix_toList_append _ _ _

/-- A literal that a statement responds with is written down in the place of the response. -/
theorem Spares.of_responds {statement response : Node} {rest : List Node}
    (hblock : fragment.block.callParts? = none) (hstatement : statement ∈ fragment.block.children)
    (hnone : statement.callParts? = none) (hresponse : response ∈ statement.children)
    (h : Responds response (literal :: rest)) (hliteral : ∀ inner ∈ literal.preorder, inner.callParts? = none) :
    Spares unwrapResponse fragment literal := by
  have hleaves {node : Node} (hparts : node.callParts? = none) : responseSubstitution.Leaves node :=
    leaves_of_not_responds fun args ⟨callee, hcall, _⟩ => by cases hparts.symm.trans hcall
  have hinside : literal.Inside response := by
    obtain ⟨callee, hparts, -⟩ := h
    exact inside_of_callParts? hparts List.mem_cons_self
  have hkept : Kept responseSubstitution literal literal :=
    .here fun inner hinner => hleaves (hliteral inner (hinner.preorder_subset (mem_preorder_self inner)))
  exact .kept rfl (.child (hleaves hblock) hstatement
    (.child (hleaves hnone) hresponse (.written hinside (writes_responseSubstitution h) hkept)))

/-! ### Literals that survive -/

/-- The part stands in the text, up to blanks next to its line breaks. -/
def Survives (part text : String) : Prop := flush part.toList <:+: flush text.toList

variable {part other : String}

theorem Survives.of_part (h : Survives part text) (hpart : text.toList <:+: other.toList) :
    Survives part other := h.trans (infix_flush hpart)

theorem Survives.of_flush_eq (h : Survives part text)
    (heq : flush other.toList = flush text.toList) : Survives part other := by
  rwa [Survives, heq]

/-- A literal within one line has no line breaks, so it stands in the text as it is. -/
theorem Survives.infix_text (h : Survives literal.text text) (hliteral : literal.IsLiteral)
    (hline : '\n' ∉ literal.text.toList) : literal.text.toList <:+: text.toList :=
  infix_of_flush_infix hliteral.solid hline h

variable [Recovery]

/-- The rule spares a literal with the text of the part. -/
def SparesIn (part : String) (rule : Rule) (body : String) : Prop :=
  ∃ literal, literal.IsLiteral ∧ flush literal.text.toList = flush part.toList ∧
    Spares rule (Fragment.parse body) literal

/-- The rules, applied one after the other, all spare the part. -/
def SparedBy (part : String) : List Rule → String → Prop
  | [], _ => True
  | rule :: rules, body => SparesIn part rule body ∧ SparedBy part rules (apply rule body)

/-- Rules that leave a body as it is spare every literal in it. -/
theorem SparedBy.of_unchanged (hliteral : literal.IsLiteral)
    (hpart : flush literal.text.toList = flush part.toList)
    (hinside : literal.Inside (Fragment.parse body).block)
    (htidy : tidy (inside (Fragment.parse body).block.text) = body)
    (hrules : ∀ rule ∈ rules, rule (Fragment.parse body) = (Fragment.parse body).block.text) :
    SparedBy part rules body := by
  induction rules with
  | nil => trivial
  | cons rule rules ih =>
      have hrule := hrules rule List.mem_cons_self
      have happly : apply rule body = body := by rw [apply, hrule, htidy]
      refine ⟨⟨literal, hliteral, hpart, Spares.of_unchanged hrule hinside⟩, ?_⟩
      rw [happly]
      exact ih fun rule hmem => hrules rule (List.mem_cons_of_mem _ hmem)

/-- A body that no rule changes stays as it is. -/
theorem applyAll_eq_self (h : ∀ rule ∈ rules, apply rule body = body) : applyAll rules body = body := by
  induction rules with
  | nil => rfl
  | cons rule rules ih =>
      rw [List.forall_mem_cons] at h
      rw [applyAll, List.foldl_cons, h.1]
      exact ih h.2

/-- What one rule spares is in the new body. -/
theorem SparesIn.survives_apply (hkeeps : rule.KeepsBraces) (h : SparesIn part rule body) :
    Survives part (apply rule body) := by
  obtain ⟨literal, hliteral, hpart, hspares⟩ := h
  have hbraced := hkeeps _ (Fragment.inBraces_parse body)
  refine Survives.of_flush_eq ?_ (flush_tidy _)
  rw [Survives, ← hpart]
  exact infix_flush (hliteral.infix_inside hbraced hspares.infix_text)

/-- What all rules spare is in the last body. -/
theorem SparedBy.survives_applyAll (hkeeps : ∀ rule ∈ rules, rule.KeepsBraces)
    (h : SparedBy part rules body) (hbody : Survives part body) :
    Survives part (applyAll rules body) := by
  induction rules generalizing body with
  | nil => exact hbody
  | cons rule rules ih =>
      rw [applyAll, List.foldl_cons, ← applyAll]
      exact ih (fun rule hrule => hkeeps rule (List.mem_cons_of_mem _ hrule)) h.2
        (h.1.survives_apply (hkeeps rule List.mem_cons_self))

/-- A rule that is applied until nothing changes spares the part if it does so every time. -/
theorem SparedBy.survives_applyUntilStable (hkeeps : rule.KeepsBraces) (limit : Nat)
    (h : SparedBy part (List.replicate limit rule) body) (hbody : Survives part body) :
    Survives part (applyUntilStable rule limit body) := by
  induction limit generalizing body with
  | zero => exact hbody
  | succ limit ih =>
      rw [List.replicate_succ] at h
      rw [applyUntilStable]
      split
      · exact hbody
      · exact ih h.2 (h.1.survives_apply hkeeps)

end RouteBinder.Body
