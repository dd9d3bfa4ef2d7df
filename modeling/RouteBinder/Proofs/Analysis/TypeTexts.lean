import RouteBinder.Proofs.Analysis.NormalTypes
import RouteBinder.Proofs.Grammar.Tokens

/-!
# RouteBinder.Proofs.Analysis.TypeTexts

**Reading the text of a type.** How far a type goes depends on where it stands (`Site`): a function type in
front of another member of a union takes that member, too, and `keyof` in front of brackets applies to the
array. `ReadAt` says of a text that it is read as one type at a site, whatever follows the site, and of a type
of parts what it takes of them that it is so, too.
-/

namespace RouteBinder.Analysis

open Source Grammar Parse TypeExpr

/-! ### Sites -/

/-- Where a type stands, as far as its text depends on it. -/
inductive Site where
  /-- By itself: on the right of an alias, in a field, or between parentheses. -/
  | whole
  /-- In a union, in front of another member. -/
  | member
  /-- In a union, behind the other members. -/
  | last
  /-- In front of brackets. -/
  | element

/-- What follows a type that stands by itself, or closes a union. -/
inductive Closes : List Char → Prop where
  | semicolon (rest : List Char) : Closes (';' :: rest)
  | parenthesis (rest : List Char) : Closes (')' :: rest)
  | brace (rest : List Char) : Closes (' ' :: '\x7d' :: rest)

/-- What follows a type at the site. -/
inductive Site.Ends : Site → List Char → Prop where
  | whole {rest : List Char} (h : Closes rest) : Ends .whole rest
  | member (rest : List Char) : Ends .member (' ' :: '|' :: ' ' :: rest)
  | last {rest : List Char} (h : Closes rest) : Ends .last rest
  | element (rest : List Char) : Ends .element ('[' :: ']' :: rest)

variable {inner : Inner} {boundary : Boundary} {cursor : Cursor} {text rest blanks : List Char}
  {type : TypeExpr} {item : Item} {c : Char} {site : Site}

/-- The token behind a type is a mark that no type goes on with, apart from a bar and a bracket. -/
theorem Closes.faces (h : Closes rest) :
    ∃ c ∈ [';', ')', '\x7d'], Faces (.start rest) c := by
  cases h with
  | semicolon rest => exact ⟨';', by simp, Grammar.faces rest (by decide)⟩
  | parenthesis rest => exact ⟨')', by simp, Grammar.faces rest (by decide)⟩
  | brace rest => exact ⟨'\x7d', by simp, faces_space rest (by decide)⟩

theorem Site.Ends.faces (h : site.Ends rest) :
    ∃ c ∈ [';', ')', '\x7d', '|', '['], Faces (.start rest) c := by
  cases h with
  | whole h | last h =>
      obtain ⟨c, hc, hfaces⟩ := h.faces
      exact ⟨c, List.mem_append_left ['|', '['] hc, hfaces⟩
  | member rest => exact ⟨'|', by simp, faces_space (' ' :: rest) (by decide)⟩
  | element rest => exact ⟨'[', by simp, Grammar.faces (']' :: rest) (by decide)⟩

theorem Site.Ends.endsName (h : site.Ends rest) : EndsName rest := by
  rintro c hc
  cases h with
  | whole h | last h => cases h <;> exact Option.some.inj hc ▸ by decide
  | member rest | element rest => exact Option.some.inj hc ▸ by decide

/-! ### Reading -/

/-- The node is read as the type. -/
structure Denotes (type : TypeExpr) (node : Node) : Prop where
  isNamed : node.isNamed = true
  kind_ne : node.kind ≠ .comment
  written : writtenType node = type

/-- The parser reads the text as the type, and stops in front of `rest`. -/
def Reads (p : Parse Item) (text rest : List Char) (type : TypeExpr) : Prop :=
  ∀ blanks, Spaces blanks → ∃ item,
    p (.start (blanks ++ (text ++ rest))) = some (item, .start rest) ∧ Denotes type item.node

/-- No operator stands in front of the type at the cursor. -/
structure Unprefixed (inner : Inner) (boundary : Boundary) (cursor : Cursor) : Prop where
  function : functionType inner boundary cursor = none
  operator : String.ofList (nameAt cursor.rest) ∉ ["readonly", "keyof", "infer"]

/-- The brackets behind a type. -/
def brackets (inner : Inner) (boundary : Boundary) : Item → Parse Item :=
  Parse.chain fun item => do
    goesOn boundary
    let opening ← mark "["
    (do
      let closing ← mark "]"
      pure (.branch .arrayType [item, opening, closing])) <|>
    (do
      let index ← inner.type .enclosed
      let closing ← mark "]"
      pure (.branch .lookupType [item, opening, index, closing]))

/-- The text is read as the type, up to the brackets that may follow it. -/
def Grows (inner : Inner) (boundary : Boundary) (text rest : List Char) (type : TypeExpr) : Prop :=
  ∀ blanks, Spaces blanks → ∃ item,
    Unprefixed inner boundary (.start (blanks ++ (text ++ rest))) ∧
      postfixType inner boundary (.start (blanks ++ (text ++ rest))) =
        brackets inner boundary item (.start rest) ∧
      Denotes type item.node

/-- A member of a union. -/
def operand (inner : Inner) (boundary : Boundary) : Parse Item :=
  joinedTypes "&" .intersectionType (prefixedType inner boundary) boundary

/-- What is read of a type at a site, before what follows the site. -/
def Site.Reads (inner : Inner) (boundary : Boundary) (text rest : List Char) (type : TypeExpr) :
    Site → Prop
  | .whole => Analysis.Reads (typeRule inner boundary) text rest type
  | .member | .last => Analysis.Reads (operand inner boundary) text rest type
  | .element => Grows inner boundary text rest type

/-- The text begins with a token, and not with the sign of a union or an intersection. -/
def Begins (text : List Char) : Prop :=
  ∃ c, text.head? = some c ∧ BeginsToken c ∧ c ∉ ['|', '&']

/-- Wherever the text stands at the site, it is read as the type. -/
structure ReadAt (site : Site) (text : String) (type : TypeExpr) : Prop where
  begins : Begins text.toList
  reads : ∀ depth boundary rest, stepsPerCharacter * text.length < depth → site.Ends rest →
    site.Reads (Inner.ofDepth depth) boundary text.toList rest type

/-- A part of a text needs no more steps. -/
theorem steps_lt_of_le {width length depth : Nat} (h : stepsPerCharacter * length < depth)
    (hle : width ≤ length) : stepsPerCharacter * width < depth :=
  lt_of_le_of_lt (Nat.mul_le_mul_left _ hle) h

/-! ### Constructs made of items -/

/-- Comments do not count. -/
def isConstruct (node : Node) : Bool := node.isNamed && node.kind != .comment

theorem isConstruct_placedAt (node : Node) (place : Place) :
    isConstruct (node.placedAt place) = isConstruct node := by
  cases node <;> rfl

theorem Denotes.isConstruct {node : Node} (h : Denotes type node) : isConstruct node = true := by
  rw [Analysis.isConstruct, h.isNamed, bne_iff_ne.2 h.kind_ne]
  rfl

/-- The constructs in a node are those among the items that it is made of. -/
theorem namedChildren_branch {α : Type} {f : Node → α}
    (hf : ∀ node place, f (node.placedAt place) = f node) (kind : Kind) (items : List Item) :
    (Item.branch kind items).node.namedChildren.map f =
      ((items.map Item.node).filter isConstruct).map f := by
  have hparts : ∀ item : Item, (item.parts.filter isConstruct).map f =
      ([item.node].filter isConstruct).map f := by
    intro item
    have hcomments : item.lead.commentNodes.filter isConstruct = [] :=
      item.lead.filter_commentNodes
    rw [Item.parts_eq, List.filter_append, hcomments, List.nil_append, List.filter_singleton,
      List.filter_singleton, isConstruct_placedAt]
    cases isConstruct item.node with
    | false => rfl
    | true => exact congrArg (· :: []) (hf _ _)
  cases items with
  | nil => rfl
  | cons first rest =>
      have hrest : ((rest.flatMap Item.parts).filter isConstruct).map f =
          ((rest.map Item.node).filter isConstruct).map f := by
        induction rest with
        | nil => rfl
        | cons item rest ih =>
            rw [List.flatMap_cons, List.filter_append, List.map_append, hparts, ih,
              ← List.map_append, ← List.filter_append]
            rfl
      show ((_ :: rest.flatMap Item.parts).filter isConstruct).map f = _
      rw [List.map_cons, List.filter_cons, List.filter_cons, isConstruct_placedAt]
      split
      · rw [List.map_cons, List.map_cons, hf, hrest]
      · exact hrest

/-- The first construct in a node. -/
theorem exists_firstNamed? (kind : Kind) {items : List Item}
    (h : (((items.map Item.node).filter isConstruct).map writtenType).head? = some type) :
    ∃ inner, (Item.branch kind items).node.firstNamed? = some inner ∧ writtenType inner = type := by
  rw [← namedChildren_branch writtenType_placedAt kind, List.head?_map, Option.map_eq_some_iff] at h
  exact h

theorem isConstruct_tokenItem (blanks : List Char) (text : String) :
    isConstruct (tokenItem blanks .symbol text).node = false := rfl

/-! ### What is refused -/

/-- A function type begins with a word, parameters or type parameters. -/
theorem functionType_refused
    (hname : String.ofList (nameAt cursor.rest) ∉ ["abstract", "new"]) (h : Faces cursor c)
    (hangle : c ≠ '<') (hparameters : formalParameters inner cursor = none) :
    functionType inner boundary cursor = none := by
  have hword : ∀ word ∈ ["abstract", "new"], keyword word cursor = none := fun word hword =>
    run_keyword_none fun heq => hname (heq ▸ hword)
  refine (run_bind (run_optional_none (hword "abstract" (by simp)))).trans ?_
  refine (run_bind (run_optional_none (hword "new" (by simp)))).trans ?_
  refine (run_bind run_require_true).trans ?_
  refine (run_bind (run_optional_none (typeParameters_refused h hangle))).trans ?_
  exact run_bind_none hparameters

theorem prefixedType_eq (h : Unprefixed inner boundary cursor) :
    prefixedType inner boundary cursor = postfixType inner boundary cursor := by
  have hmodifier : ∀ {openings word : String}, word ∈ ["readonly", "keyof", "infer"] →
      modifier openings [word] .symbol cursor = none := fun hword =>
    modifier_refused fun hmem => h.operator (List.mem_singleton.1 hmem ▸ hword)
  rw [prefixedType, run_orElse_none h.function, run_orElse_none (run_bind_none (hmodifier (by simp))),
    run_orElse_none (run_bind_none (hmodifier (by simp))),
    run_orElse_none (run_bind_none (hmodifier (by simp)))]

/-- A word other than those that operators begin with. -/
theorem unprefixed_of_word (h : Faces cursor c) (hc : isNameStart c = true)
    (hname : String.ofList (nameAt cursor.rest) ∉ ["abstract", "new", "readonly", "keyof", "infer"]) :
    Unprefixed inner boundary cursor where
  function := by
    refine functionType_refused (fun hmem => hname ?_) h ?_ (formalParameters_refused h ?_)
    · exact List.mem_append_left ["readonly", "keyof", "infer"] hmem
    · rintro rfl
      exact absurd hc (by decide)
    · rintro rfl
      exact absurd hc (by decide)
  operator := fun hmem => hname (List.mem_append_right ["abstract", "new"] hmem)

/-- A mark other than those that functions begin with. -/
theorem unprefixed_of_mark (h : Faces cursor c) (hc : isNameStart c = false) (hangle : c ≠ '<')
    (hparameters : formalParameters inner cursor = none) : Unprefixed inner boundary cursor where
  function := functionType_refused (by rw [nameAt_of_faces h hc]; decide) h hangle hparameters
  operator := by rw [nameAt_of_faces h hc]; decide

/-! ### From members of unions to types -/

/-- Nothing is joined to the first operand when no sign follows it. -/
theorem joinedTypes_start {sign : String} {kind : Kind} {p : Parse Item} {next : Cursor}
    {d first : Char} (hsign : sign.toList.head? = some first) (hfaces : Faces cursor c)
    (hc : first ≠ c) (hp : p cursor = some (item, next)) (hnext : Faces next d) (hd : first ≠ d) :
    joinedTypes sign kind p boundary cursor = some (item, next) := by
  refine (run_bind (run_optional_none (mark_refused hfaces hsign hc))).trans ?_
  refine (run_bind hp).trans (chain_refused (goesOn_refused ?_))
  refine (run_bind rfl).trans ?_
  refine (run_bind rfl).trans (require_refused (run_bind_none (mark_refused hnext hsign hd)))

theorem Begins.faces (h : Begins text) (rest : List Char) (hblanks : Spaces blanks) :
    ∃ c, Faces (.start (blanks ++ (text ++ rest))) c ∧ '|' ≠ c ∧ '&' ≠ c := by
  obtain ⟨c, hhead, hc, hsign⟩ := h
  rw [List.mem_pair, not_or] at hsign
  cases text with
  | nil => cases hhead
  | cons first more =>
      obtain rfl := Option.some.inj hhead
      exact ⟨first, faces_start hblanks hc, Ne.symm hsign.1, Ne.symm hsign.2⟩

/-- No brackets follow. -/
theorem brackets_refused (h : Faces cursor c) (hc : '[' ≠ c) (item : Item) :
    brackets inner boundary item cursor = some (item, cursor) :=
  chain_refused (goesOn_refused (run_bind_none (mark_refused h (d := '[') (by decide) hc)))

/-- A type that no brackets follow is a member of a union. -/
theorem reads_operand (h : Grows inner boundary text rest type) (hbegins : Begins text)
    (hfaces : Faces (.start rest) c) (hc : c ∈ [';', ')', '\x7d', '|']) :
    Reads (operand inner boundary) text rest type := by
  intro blanks hblanks
  obtain ⟨item, hunprefixed, hpostfix, hdenotes⟩ := h blanks hblanks
  obtain ⟨first, hfirst, -, hne⟩ := hbegins.faces rest hblanks
  have hmarks : '[' ≠ c ∧ '&' ≠ c := by
    simp only [List.mem_cons, List.not_mem_nil, or_false] at hc
    rcases hc with rfl | rfl | rfl | rfl <;> decide
  rw [brackets_refused hfaces hmarks.1, ← prefixedType_eq hunprefixed] at hpostfix
  exact ⟨item, joinedTypes_start (by decide) hfirst hne hpostfix hfaces hmarks.2, hdenotes⟩

/-- A type that no other member follows is a type by itself. -/
theorem reads_typeRule (h : Reads (unionType inner boundary) text rest type) (hcloses : Closes rest) :
    Reads (typeRule inner boundary) text rest type := by
  intro blanks hblanks
  obtain ⟨item, hunion, hdenotes⟩ := h blanks hblanks
  obtain ⟨c, hc, hfaces⟩ := hcloses.faces
  have hname : isNameStart c = false := by
    simp only [List.mem_cons, List.not_mem_nil, or_false] at hc
    rcases hc with rfl | rfl | rfl <;> decide
  refine ⟨item, (run_bind hunion).trans ((run_orElse_none ?_).trans rfl), hdenotes⟩
  exact goesOn_refused (run_bind_none (keyword_refused_of_faces hfaces hname (by decide)))

theorem reads_unionType (h : Reads (operand inner boundary) text rest type) (hbegins : Begins text)
    (hcloses : Closes rest) : Reads (unionType inner boundary) text rest type := by
  intro blanks hblanks
  obtain ⟨item, hoperand, hdenotes⟩ := h blanks hblanks
  obtain ⟨first, hfirst, hne, -⟩ := hbegins.faces rest hblanks
  obtain ⟨c, hc, hfaces⟩ := hcloses.faces
  have hmark : '|' ≠ c := by
    simp only [List.mem_cons, List.not_mem_nil, or_false] at hc
    rcases hc with rfl | rfl | rfl <;> decide
  exact ⟨item, joinedTypes_start (by decide) hfirst hne hoperand hfaces hmark, hdenotes⟩

/-- What is read up to the brackets that may follow it is read as one type everywhere. -/
theorem readAt_of_grows {text : String} (hbegins : Begins text.toList)
    (h : ∀ depth boundary site rest, stepsPerCharacter * text.length < depth → Site.Ends site rest →
      Grows (Inner.ofDepth depth) boundary text.toList rest type) (site : Site) :
    ReadAt site text type where
  begins := hbegins
  reads := by
    intro depth boundary rest hdepth hends
    have hgrows := h depth boundary site rest hdepth hends
    cases hends with
    | whole hcloses =>
        obtain ⟨c, hc, hfaces⟩ := hcloses.faces
        have hoperand := reads_operand hgrows hbegins hfaces (List.mem_append_left ['|'] hc)
        exact reads_typeRule (reads_unionType hoperand hbegins hcloses) hcloses
    | member rest => exact reads_operand hgrows hbegins (faces_space (' ' :: rest) (by decide)) (by simp)
    | last hcloses =>
        obtain ⟨c, hc, hfaces⟩ := hcloses.faces
        exact reads_operand hgrows hbegins hfaces (List.mem_append_left ['|'] hc)
    | element rest => exact hgrows

/-! ### Primary types -/

/-- A type between parentheses. -/
def parenthesizedType (inner : Inner) : Parse Item := do
  let opening ← mark "("
  let type ← inner.type .enclosed
  let closing ← mark ")"
  pure (.branch .parenthesizedType [opening, type, closing])

/-- Primary types that begin with a parenthesis or a brace. -/
theorem primaryType_mark (h : Faces cursor c) (hc : c ∈ ['(', '\x7b']) :
    primaryType inner boundary cursor =
      (parenthesizedType inner <|> objectTypeOf inner .objectType <|>
        (do return .branch .tupleType (← denseList "[" "]" (tupleMember inner))) <|>
        namedType inner boundary) cursor := by
  have hmark : isNameStart c = false ∧ c.isDigit = false ∧ c ∉ ['\x27', '\x22', '.', '-', '+', '\x60'] := by
    rcases List.mem_pair.1 hc with rfl | rfl <;> decide
  obtain ⟨hstart, hdigit, hne⟩ := hmark
  simp only [List.mem_cons, List.not_mem_nil, or_false, not_or] at hne
  obtain ⟨hquote, hquotes, hdot, hminus, hplus, htick⟩ := hne
  have hname := nameAt_of_faces h hstart
  have hword : ∀ {word : String}, word ≠ "" → keyword word cursor = none := fun hword =>
    keyword_refused_of_faces h hstart hword
  have hpredefined : predefinedType cursor = none := by
    refine (run_orElse_none (run_bind_none (keywordOf_refused hname ?_))).trans
      (run_bind_none (hword (by decide)))
    decide
  have hliteral : literalType cursor = none := by
    obtain ⟨rest, hrest⟩ := h
    have hstring : stringLiteral cursor = none :=
      literal_refused (by rw [hrest, stringLength_eq_none ⟨hquote, hquotes⟩])
    have hnumber : numberLiteral cursor = none :=
      literal_refused (by rw [hrest, numberLength_eq_none hdigit hdot])
    have hsign : (do
        let sign ← mark "-" <|> mark "+"
        let number ← numberLiteral
        pure (.branch .unaryExpression [sign.as .operator, number.as .argument]) : Parse Item)
          cursor = none := by
      refine run_bind_none ((run_orElse_none ?_).trans ?_)
      · exact mark_refused ⟨rest, hrest⟩ (d := '-') (by decide) (Ne.symm hminus)
      · exact mark_refused ⟨rest, hrest⟩ (d := '+') (by decide) (Ne.symm hplus)
    refine run_bind_none ?_
    rw [run_orElse_none hstring, run_orElse_none hnumber,
      run_orElse_none (run_bind_none (hword (by decide))),
      run_orElse_none (run_bind_none (hword (by decide))),
      run_orElse_none (run_bind_none (hword (by decide))),
      run_orElse_none (run_bind_none (hword (by decide))), hsign]
  have himported : importedType inner boundary cursor = none := by
    refine (run_bind rfl).trans ?_
    rw [hname]
    rfl
  have htemplate : templateOf .templateLiteralType
      (substitutionOf .templateType (inner.type .enclosed)) cursor = none :=
    run_bind_none (mark_refused h (d := '\x60') (by decide) (Ne.symm htick))
  rw [primaryType, run_orElse_none (run_bind_none (hword (by decide))), run_orElse_none hpredefined,
    run_orElse_none hliteral, run_orElse_none himported,
    run_orElse_none (run_bind_none (hword (by decide))), run_orElse_none htemplate]
  rfl

end RouteBinder.Analysis
