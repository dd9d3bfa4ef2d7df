import RouteBinder.Proofs.Grammar.Tokens

/-!
# RouteBinder.Proofs.Grammar.Statements

**Which statement begins here.** Most statements are refused at their first word (`statementRule_eq`). At the
end of the source all of them are, down to the last alternative for an expression (`statementRule_end`), so a
program ends there.
-/

namespace RouteBinder.Grammar

open Source Parse

variable {inner : Inner} {boundary : Boundary} {cursor : Cursor}

/-! ### Words that statements begin with -/

/-- Words that statements other than declarations begin with. -/
def leadingWords : List String :=
  ["export", "import", "if", "for", "while", "do", "with", "switch", "try", "break", "continue",
    "return", "throw", "debugger", "namespace"]

theorem keyword_refused_of_mem {words : List String} {word : String}
    (h : String.ofList (nameAt cursor.rest) ∉ words) (hword : word ∈ words) :
    keyword word cursor = none :=
  run_keyword_none fun heq => h (heq ▸ hword)

/-- A statement that begins with none of the words and marks of other statements. -/
theorem statementRule_eq (hword : String.ofList (nameAt cursor.rest) ∉ leadingWords)
    (hmark : ∀ sign ∈ [";", "\x7b", "@"], mark sign cursor = none) :
    statementRule inner cursor =
      (declaration inner [] <|> labeledStatement inner <|> expressionStatement inner) cursor := by
  have hbegin : ∀ {word : String} {α : Type} {f : Item → Parse α}, word ∈ leadingWords →
      (keyword word >>= f) cursor = none := fun hmem =>
    run_bind_none (keyword_refused_of_mem hword hmem)
  have hdecorators := @decorators_refused cursor inner (hmark "@" (by decide))
  have hdecorated : ((do
      let decorators ← many (decorator inner)
      require !decorators.isEmpty
      classDeclaration inner decorators) : Parse Item) cursor = none :=
    (run_bind hdecorators).trans rfl
  have hempty : emptyStatement cursor = none := run_bind_none (hmark ";" (by decide))
  have hblock : statementBlock inner cursor = none := run_bind_none (hmark "\x7b" (by decide))
  have hexport : exportStatement inner cursor = none :=
    (run_bind hdecorators).trans (hbegin (by decide))
  have himport : importStatement inner cursor = none := hbegin (by decide)
  have hif : ifStatement inner cursor = none := hbegin (by decide)
  have hfor : forStatement inner cursor = none := hbegin (by decide)
  have hforIn : forInStatement inner cursor = none := hbegin (by decide)
  have hwhile : whileStatement inner cursor = none := hbegin (by decide)
  have hdo : doStatement inner cursor = none := hbegin (by decide)
  have hwith : withStatement inner cursor = none := hbegin (by decide)
  have hswitch : switchStatement inner cursor = none := hbegin (by decide)
  have htry : tryStatement inner cursor = none := hbegin (by decide)
  have hbreak : jumpStatement "break" .breakStatement cursor = none := hbegin (by decide)
  have hcontinue : jumpStatement "continue" .continueStatement cursor = none := hbegin (by decide)
  have hreturn : returnStatement inner cursor = none := hbegin (by decide)
  have hthrow : throwStatement inner cursor = none := hbegin (by decide)
  have hdebugger : debuggerStatement cursor = none := hbegin (by decide)
  have hnamespace : namespaceStatement inner cursor = none := run_bind_none (hbegin (by decide))
  rw [statementRule, run_orElse_none hempty, run_orElse_none hblock, run_orElse_none hexport,
    run_orElse_none himport, run_orElse_none hif, run_orElse_none hfor, run_orElse_none hforIn,
    run_orElse_none hwhile, run_orElse_none hdo, run_orElse_none hwith, run_orElse_none hswitch,
    run_orElse_none htry, run_orElse_none hbreak, run_orElse_none hcontinue,
    run_orElse_none hreturn, run_orElse_none hthrow, run_orElse_none hdebugger,
    run_orElse_none hnamespace]
  cases hdeclaration : declaration inner [] cursor with
  | none => rw [run_orElse_none hdeclaration, run_orElse_none hdeclaration, run_orElse_none hdecorated]
  | some result => rw [run_orElse hdeclaration, run_orElse hdeclaration]

/-- Words that declarations of values begin with. -/
def valueWords : List String :=
  ["async", "function", "abstract", "class", "const", "enum", "let", "var"]

/-- A declaration of no value. -/
theorem plainDeclaration_eq (hword : String.ofList (nameAt cursor.rest) ∉ valueWords) :
    plainDeclaration inner [] cursor =
      (typeAliasDeclaration inner <|> interfaceDeclaration inner <|> namespaceDeclaration inner <|>
        moduleParts inner "module" .moduleDeclaration <|> importAlias) cursor := by
  have hrefused : ∀ {word : String}, word ∈ valueWords → keyword word cursor = none := fun hmem =>
    keyword_refused_of_mem hword hmem
  have hfunction : functionDeclaration inner cursor = none :=
    run_bind_none ((run_bind (run_optional_none (hrefused (by decide)))).trans
      (run_bind_none (hrefused (by decide))))
  have hclass : classDeclaration inner [] cursor = none :=
    (run_bind (run_optional_none (hrefused (by decide)))).trans (run_bind_none (hrefused (by decide)))
  have henum : enumDeclaration inner cursor = none :=
    (run_bind (run_optional_none (hrefused (by decide)))).trans (run_bind_none (hrefused (by decide)))
  have hvariable : variableDeclaration inner cursor = none :=
    run_bind_none (run_keywordOf_none fun hmem => hword (by
      have hsubset : ["const", "let", "var"] ⊆ valueWords := by decide
      exact hsubset hmem))
  rw [plainDeclaration, run_orElse_none hfunction, run_orElse_none hclass, run_orElse_none henum,
    run_orElse_none hvariable]

/-! ### The end of the source -/

/-- Nothing is left. -/
structure AtEnd (cursor : Cursor) : Prop where
  rest_eq : cursor.rest = []

theorem start_nil : Cursor.start [] = { tail := [], lead := {}, rest := [], left := 1 } := by
  rw [Cursor.start, Lead.split]
  rfl

theorem atEnd_start : AtEnd (.start []) := ⟨by rw [start_nil]⟩

namespace AtEnd

variable {word : String} {words : List String} {kind : Kind}

theorem mark (h : AtEnd cursor) (hword : word ≠ "") : mark word cursor = none := by
  refine run_mark_none ?_
  rw [h.rest_eq]
  cases htext : word.toList with
  | nil => exact absurd (String.toList_inj.1 htext) hword
  | cons c rest => rfl

theorem nameAt (h : AtEnd cursor) : nameAt cursor.rest = [] := by
  rw [h.rest_eq]
  rfl

theorem keyword (h : AtEnd cursor) (hword : word ≠ "") : keyword word cursor = none :=
  keyword_refused h.nameAt fun hnil => hword (String.toList_inj.1 hnil)

theorem keywordOf (h : AtEnd cursor) (hwords : "" ∉ words) : keywordOf words cursor = none :=
  keywordOf_refused h.nameAt hwords

end AtEnd

/-- Nested expressions are refused at the end of the source. -/
structure Inner.RefusesEnd (inner : Inner) : Prop where
  expression : ∀ boundary cursor, AtEnd cursor → inner.expression boundary cursor = none
  operation : ∀ level boundary cursor, AtEnd cursor → inner.operation level boundary cursor = none
  operand : ∀ boundary cursor, AtEnd cursor → inner.operand boundary cursor = none

namespace AtEnd

theorem functionHead (h : AtEnd cursor) : functionHead cursor = none :=
  (run_bind (run_optional_none (h.keyword (by decide)))).trans (run_bind_none (h.keyword (by decide)))

theorem callSignatureParts (h : AtEnd cursor) : callSignatureParts inner boundary cursor = none := by
  have hgenerics : typeParameters inner cursor = none :=
    run_bind_none (run_bind_none (h.mark (by decide)))
  refine (run_bind (run_optional_none hgenerics)).trans (run_bind_none ?_)
  exact run_bind_none (run_bind_none (h.mark (by decide)))

theorem arrowFunction (h : AtEnd cursor) : arrowFunction inner boundary cursor = none := by
  refine (run_orElse_none (run_bind_none ?_)).trans (run_bind_none (h.keyword (by decide)))
  exact (run_orElse_none (run_bind_none (name_refused h.nameAt))).trans h.callSignatureParts

theorem metaProperty (h : AtEnd cursor) : metaProperty cursor = none :=
  (run_orElse_none (run_bind_none (h.keyword (by decide)))).trans
    (run_bind_none (h.keyword (by decide)))

theorem valueWord (h : AtEnd cursor) : valueWord cursor = none := by
  refine (run_orElse_none (run_bind_none (h.keyword (by decide)))).trans ?_
  refine (run_orElse_none (run_bind_none (h.keyword (by decide)))).trans ?_
  refine (run_orElse_none (run_bind_none (h.keyword (by decide)))).trans ?_
  refine (run_orElse_none (run_bind_none (h.keyword (by decide)))).trans ?_
  exact (run_orElse_none (run_bind_none (h.keyword (by decide)))).trans
    (run_bind_none (h.keyword (by decide)))

theorem literal (h : AtEnd cursor) :
    stringLiteral cursor = none ∧ numberLiteral cursor = none ∧ regexLiteral cursor = none :=
  ⟨literal_refused (by rw [h.rest_eq]; rfl), literal_refused (by rw [h.rest_eq]; rfl),
    literal_refused (by rw [h.rest_eq]; rfl)⟩

theorem plainPrimary (h : AtEnd cursor) : plainPrimary inner cursor = none := by
  obtain ⟨hstring, hnumber, hregex⟩ := h.literal
  have htemplate : templateLiteral inner cursor = none := run_bind_none (h.mark (by decide))
  have hfunction : functionExpression inner cursor = none := run_bind_none h.functionHead
  have hclass : classExpression inner cursor = none :=
    (run_bind (decorators_refused (h.mark (by decide)))).trans (run_bind_none (h.keyword (by decide)))
  have himport : importName cursor = none := run_bind_none (h.keyword (by decide))
  have harray : (do return .branch .array (← valueList inner "[" "]") : Parse Item) cursor = none :=
    run_bind_none (run_bind_none (h.mark (by decide)))
  have hobject : objectLiteral inner cursor = none :=
    run_bind_none (run_bind_none (h.mark (by decide)))
  have hparenthesized : parenthesized inner cursor = none := run_bind_none (h.mark (by decide))
  have hname : valueName cursor = none := by
    refine (run_bind rfl).trans ?_
    rw [h.nameAt]
    rfl
  have hprivate : privateName cursor = none := by
    refine (run_bind rfl).trans ?_
    rw [h.rest_eq]
    rfl
  rw [Grammar.plainPrimary, run_orElse_none hstring, run_orElse_none hnumber,
    run_orElse_none htemplate, run_orElse_none hregex, run_orElse_none hfunction,
    run_orElse_none hclass, run_orElse_none h.metaProperty, run_orElse_none h.valueWord,
    run_orElse_none himport, run_orElse_none harray, run_orElse_none hobject,
    run_orElse_none hparenthesized, run_orElse_none hname, hprivate]

theorem postfixed (h : AtEnd cursor) : postfixed inner boundary cursor = none := by
  have hnew : newExpression inner cursor = none := run_bind_none (h.keyword (by decide))
  refine run_bind_none ((run_orElse_none h.arrowFunction).trans ?_)
  exact (run_orElse_none h.metaProperty).trans ((run_orElse_none hnew).trans h.plainPrimary)

theorem operandRule (h : AtEnd cursor) : operandRule inner boundary cursor = none := by
  have hupdate : (Grammar.mark "++" <|> Grammar.mark "--" : Parse Item) cursor = none :=
    (run_orElse_none (h.mark (by decide))).trans (h.mark (by decide))
  have hprefix : (Grammar.mark "!" <|> Grammar.mark "~" <|> Grammar.mark "-" <|> Grammar.mark "+" <|>
      Grammar.keywordOf ["typeof", "void", "delete"] : Parse Item) cursor = none :=
    (run_orElse_none (h.mark (by decide))).trans <| (run_orElse_none (h.mark (by decide))).trans <|
      (run_orElse_none (h.mark (by decide))).trans <|
      (run_orElse_none (h.mark (by decide))).trans (h.keywordOf (by decide))
  have htypes : typeArguments inner cursor = none := run_bind_none (h.mark (by decide))
  refine (run_orElse_none (run_bind_none hupdate)).trans ?_
  refine (run_orElse_none (run_bind_none hprefix)).trans ?_
  refine (run_orElse_none (run_bind_none (h.keyword (by decide)))).trans ?_
  exact (run_orElse_none (run_bind_none h.postfixed)).trans (run_bind_none htypes)

theorem expressionRule (h : AtEnd cursor) (hinner : inner.RefusesEnd) :
    expressionRule inner boundary cursor = none := by
  have hpattern : patternAssignment inner boundary cursor = none :=
    run_bind_none ((run_orElse_none (run_bind_none (run_bind_none (h.mark (by decide))))).trans
      (run_bind_none (run_bind_none (h.mark (by decide)))))
  refine (run_orElse_none (run_bind_none (h.keyword (by decide)))).trans ?_
  refine (run_orElse_none (run_bind_none (h.keyword (by decide)))).trans ?_
  exact (run_orElse_none hpattern).trans (run_bind_none (hinner.operation _ _ _ h))

end AtEnd

theorem refusesEnd_ofDepth (depth : Nat) : (Inner.ofDepth depth).RefusesEnd := by
  induction depth with
  | zero => exact ⟨fun _ _ _ => rfl, fun _ _ _ _ => rfl, fun _ _ _ => rfl⟩
  | succ depth ih =>
      exact
        { expression := fun _ _ h => h.expressionRule ih
          operation := fun _ _ _ h => run_bind_none (ih.operand _ _ h)
          operand := fun _ _ h => h.operandRule }

/-- No statement begins at the end of the source. -/
theorem statementRule_end (h : AtEnd cursor) (hinner : inner.RefusesEnd) :
    statementRule inner cursor = none := by
  have hname : String.ofList (nameAt cursor.rest) = "" := by
    rw [h.nameAt, String.ofList_nil]
  have hmarks : ∀ sign ∈ [";", "\x7b", "@"], mark sign cursor = none := fun sign hsign =>
    h.mark (by
      rintro rfl
      exact absurd hsign (by decide))
  have hplain : plainDeclaration inner [] cursor = none := by
    rw [plainDeclaration_eq (by rw [hname]; decide)]
    refine (run_orElse_none (run_bind_none (h.keyword (by decide)))).trans ?_
    refine (run_orElse_none (run_bind_none (h.keyword (by decide)))).trans ?_
    refine (run_orElse_none (run_bind_none (h.keyword (by decide)))).trans ?_
    exact (run_orElse_none (run_bind_none (h.keyword (by decide)))).trans
      (run_bind_none (h.keyword (by decide)))
  have hdeclaration : declaration inner [] cursor = none :=
    (run_orElse_none hplain).trans (run_bind_none (h.keyword (by decide)))
  have hexpressions : expressions inner .expression cursor = none :=
    run_bind_none (run_bind_none (hinner.expression _ _ h))
  have hexpression : expressionStatement inner cursor = none := by
    refine (run_bind rfl).trans ?_
    rw [hname]
    exact (run_bind run_require_true).trans (run_bind_none hexpressions)
  have hlabel : labeledStatement inner cursor = none := run_bind_none (name_refused h.nameAt)
  rw [statementRule_eq (by rw [hname]; decide) hmarks, run_orElse_none hdeclaration,
    run_orElse_none hlabel, hexpression]

/-! ### Programs of one statement -/

/-- A program that is one statement. -/
theorem parse?_statement {source : String} {item : Item} (hne : source.toList ≠ [])
    (hline : hashBangLine (.start source.toList) = none)
    (h : statementRule (.ofDepth (stepsPerCharacter * source.length + 15)) (.start source.toList) =
      some (item, .start [])) :
    parse? source = some (.branch {} .program item.parts) := by
  have hend : many (statementRule (.ofDepth (stepsPerCharacter * source.length + 15))) (.start []) =
      some ([], .start []) :=
    run_many_none (statementRule_end atEnd_start (refusesEnd_ofDepth _))
  have hmany : many (Inner.ofDepth (stepsPerCharacter * source.length + 16)).statement
      (.start source.toList) = some ([item], .start []) := by
    have hstep := @many_start [] _ (statementRule (.ofDepth (stepsPerCharacter * source.length + 15)))
      item source.toList (by rwa [List.append_nil]) hne
    rwa [List.append_nil, hend] at hstep
  rw [parse?, String.length_toList, programRule, run_bind (run_optional_none hline), run_bind hmany, start_nil]
  show some (Node.branch {} .program (([item].flatMap Item.parts) ++ [])) = _
  rw [List.append_nil, List.flatMap_singleton]

end RouteBinder.Grammar
