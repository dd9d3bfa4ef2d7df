import RouteBinder.Grammar.Tree
import RouteBinder.Proofs.Analysis.HandledVerbs
import RouteBinder.Proofs.Placed

/-!
# RouteBinder.Proofs.Analysis.FirstImplementations

**Which declarations make the handlers of a module.** The exported declarations of a module are read one by
one. `implementations_eq` says what has been found after each of them: for every verb implemented so far, in
the order of the first implementations, a site with the first function and with the first return type that
any of the functions declares. The overload signatures only count in the end, for the verbs that have no
return type then (`discoverHandlers_eq`).

What counts is said without reading (`Implements`, `SignsAs`): a declaration has a place in the module, and
what is found first is what has the first place (`discoverHandlers_first`).
-/

namespace RouteBinder.Analysis

open Source

variable {declarations : List ExportedDeclaration} {declaration : ExportedDeclaration} {verb : String}
  {program statement function : Node} {text : String}

/-! ### What a statement exports -/

/-- The text is that of the type that a function declares to return, without blanks around it; an annotation
is more than its type. -/
def DeclaresType (function : Node) (text : String) : Prop :=
  text ≠ "" ∧ ∃ written type, function.field? .returnType = some written ∧
    (written.kind = .typeClause → written.firstNamed? = some type) ∧
    (written.kind ≠ .typeClause → type = written) ∧ Text.trim type.text = text

/-- What a declaration declares: the signature of an overload, a function, or the functions that its
variables are initialised with. Each variable has a place of its own. -/
inductive DeclaresAt (exported : Node) : Nat → ExportedDeclaration → Prop where
  | signature (hkind : exported.kind = .functionSignature) :
      DeclaresAt exported 0 (.overload (exported.fieldText .name) exported)
  | function
      (hkind : exported.kind = .functionDeclaration ∨ exported.kind = .generatorFunctionDeclaration) :
      DeclaresAt exported 0 (.implementation (exported.fieldText .name) exported)
  | initialised {place : Nat} {declarator function : Node}
      (hkind : exported.kind = .lexicalDeclaration ∨ exported.kind = .variableDeclaration)
      (hplace : exported.namedChildren[place]? = some declarator)
      (hdeclarator : declarator.kind = .variableDeclarator)
      (hvalue : declarator.field? .value = some function)
      (hfunction : function.kind = .arrowFunction ∨ function.kind = .functionExpression) :
      DeclaresAt exported place (.implementation (declarator.fieldText .name) function)

/-- The statement exports the declaration. -/
def Exports (statement : Node) (place : Nat) (declaration : ExportedDeclaration) : Prop :=
  statement.kind = .exportStatement ∧
    ∃ exported, statement.field? .declaration = some exported ∧ DeclaresAt exported place declaration

theorem declaredReturnType?_eq_some_iff :
    declaredReturnType? function = some text ↔ DeclaresType function text := by
  simp only [declaredReturnType?, present, Node.typeField?, Node.annotatedType?, Option.filter_eq_some_iff,
    Option.map_eq_some_iff, Option.bind_eq_some_iff, DeclaresType]
  constructor
  · rintro ⟨⟨type, ⟨written, hwritten, htype⟩, rfl⟩, hpresent⟩
    refine ⟨by simpa using hpresent, written, type, hwritten, fun hkind => ?_, fun hkind => ?_, rfl⟩
    · rwa [if_pos (beq_iff_eq.2 hkind)] at htype
    · rw [if_neg (mt beq_iff_eq.1 hkind)] at htype
      exact (Option.some.inj htype).symm
  · rintro ⟨hpresent, written, type, hwritten, hclause, hself, rfl⟩
    refine ⟨⟨type, ⟨written, hwritten, ?_⟩, rfl⟩, by simpa using hpresent⟩
    split
    · exact hclause (beq_iff_eq.1 ‹_›)
    · rw [hself (mt beq_iff_eq.2 ‹_›)]

/-- The functions that variables are initialised with, under the names of the variables. -/
theorem inOrder_initialised {exported : Node}
    (hvariable : exported.kind = .lexicalDeclaration ∨ exported.kind = .variableDeclaration) :
    InOrder (DeclaresAt exported) (exported.declarators.filterMap fun declarator =>
      ((declarator.field? .value).filter isHandlerValue).map fun function =>
        ExportedDeclaration.implementation (declarator.fieldText .name) function) := by
  rw [Node.declarators, List.filterMap_filter]
  refine ((InOrder.ofPositions exported.namedChildren).filterMap _).congr fun place declaration => ?_
  constructor
  · rintro ⟨declarator, hplace, hfound⟩
    obtain ⟨hdeclarator, hfound⟩ := Option.ite_none_right_eq_some.1 hfound
    obtain ⟨function, hvalue, rfl⟩ := Option.map_eq_some_iff.1 hfound
    obtain ⟨hvalue, hhandler⟩ := Option.filter_eq_some_iff.1 hvalue
    exact .initialised hvariable hplace (beq_iff_eq.1 hdeclarator) hvalue
      (by simpa [isHandlerValue] using hhandler)
  · intro h
    cases h with
    | signature hkind => rcases hvariable with hvariable | hvariable <;> cases hkind.symm.trans hvariable
    | function hkind =>
        rcases hkind with hkind | hkind <;> rcases hvariable with hvariable | hvariable <;>
          cases hkind.symm.trans hvariable
    | @initialised _ declarator function _ hplace hdeclarator hvalue hfunction =>
        refine ⟨declarator, hplace, ?_⟩
        have hhandler : isHandlerValue function = true := by simpa [isHandlerValue] using hfunction
        rw [if_pos (beq_iff_eq.2 hdeclarator), hvalue, Option.filter_some_pos hhandler, Option.map_some]

/-- A declaration of one function or signature. -/
theorem inOrder_declared {exported : Node}
    (hvariable : exported.kind ≠ .lexicalDeclaration ∧ exported.kind ≠ .variableDeclaration)
    (h : DeclaresAt exported 0 declaration) : InOrder (DeclaresAt exported) [declaration] := by
  refine .singleton 0 fun place other => ⟨fun hother => ?_, fun ⟨hplace, hother⟩ => hplace ▸ hother ▸ h⟩
  cases h with
  | signature hkind =>
      cases hother with
      | signature => exact ⟨rfl, rfl⟩
      | function hother => rcases hother with hother | hother <;> cases hkind.symm.trans hother
      | initialised hother => exact absurd hother (not_or.2 hvariable)
  | function hkind =>
      cases hother with
      | signature hother => rcases hkind with hkind | hkind <;> cases hkind.symm.trans hother
      | function => exact ⟨rfl, rfl⟩
      | initialised hother => exact absurd hother (not_or.2 hvariable)
  | initialised hkind => exact absurd hkind (not_or.2 hvariable)

/-- What a statement exports is read in order. -/
theorem inOrder_exportedDeclarations (statement : Node) :
    InOrder (Exports statement) (exportedDeclarations statement) := by
  unfold exportedDeclarations
  split
  case isFalse hexport => exact .nil fun place declaration h => hexport (beq_iff_eq.2 h.1)
  case isTrue hexport =>
    have hexport := beq_iff_eq.1 hexport
    split
    case h_1 hnone =>
      refine .nil fun place declaration h => ?_
      obtain ⟨-, exported, hsome, -⟩ := h
      cases hnone.symm.trans hsome
    case h_2 exported hsome =>
      have hexports : ∀ place declaration, DeclaresAt exported place declaration ↔
          Exports statement place declaration := by
        intro place declaration
        rw [Exports, and_iff_right hexport, hsome]
        simp only [Option.some.injEq, exists_eq_left']
      refine InOrder.congr ?_ hexports
      split
      case h_1 hkind => exact inOrder_declared (by rw [hkind]; decide) (.signature hkind)
      case h_2 hkind => exact inOrder_declared (by rw [hkind]; decide) (.function (Or.inl hkind))
      case h_3 hkind => exact inOrder_declared (by rw [hkind]; decide) (.function (Or.inr hkind))
      case h_4 hkind => exact inOrder_initialised (Or.inl hkind)
      case h_5 hkind => exact inOrder_initialised (Or.inr hkind)
      case h_6 hsignature hfunction hgenerator hlexical hvariable =>
        refine .nil fun place declaration h => ?_
        cases h with
        | signature hkind => exact hsignature hkind
        | function hkind => exact hkind.elim hfunction hgenerator
        | initialised hkind => exact hkind.elim hlexical hvariable

/-! ### Declarations of a verb -/

/-- The declared functions of a verb that have a body, in the order of the source. -/
def functionsOf (verb : String) (declarations : List ExportedDeclaration) : List Node :=
  declarations.filterMap fun declaration =>
    match declaration with
    | .implementation name function =>
      if name = verb ∧ (function.field? .body).isSome then some function else none
    | .overload .. => none

/-- The declared overload signatures of a verb, in the order of the source. -/
def overloadsOf (verb : String) (declarations : List ExportedDeclaration) : List Node :=
  declarations.filterMap fun declaration =>
    match declaration with
    | .overload name node => if name = verb then some node else none
    | .implementation .. => none

/-- The verb that a declaration implements. -/
def implementedVerb? : ExportedDeclaration → Option String
  | .implementation name function =>
    if verbs.contains name && (function.field? .body).isSome then some name else none
  | .overload .. => none

/-- The verb of each implementation, in the order of the source. -/
def implementedVerbs (declarations : List ExportedDeclaration) : List String :=
  declarations.filterMap implementedVerb?

/-- The first function of a verb, with the first return type that any of its functions declares. -/
def siteOf? (declarations : List ExportedDeclaration) (verb : String) : Option HandlerSite :=
  (functionsOf verb declarations).head?.map fun function =>
    { verb, function, returnType := (functionsOf verb declarations).findSome? declaredReturnType? }

theorem mem_functionsOf : function ∈ functionsOf verb declarations ↔
    .implementation verb function ∈ declarations ∧ (function.field? .body).isSome := by
  simp only [functionsOf, List.mem_filterMap]
  constructor
  · rintro ⟨declaration, hmem, h⟩
    split at h
    · split at h
      · rename_i hcond
        obtain ⟨rfl, hbody⟩ := hcond
        cases h
        exact ⟨hmem, hbody⟩
      · cases h
    · cases h
  · rintro ⟨hmem, hbody⟩
    exact ⟨_, hmem, by simp [hbody]⟩

/-- A declaration implements the verb of one of its functions that have a body, if it is a verb at all. -/
theorem implementedVerb?_eq_some_iff : implementedVerb? declaration = some verb ↔
    verb ∈ verbs ∧ ∃ function, declaration = .implementation verb function ∧
      (function.field? .body).isSome := by
  cases declaration with
  | overload name node => simp [implementedVerb?]
  | implementation name function =>
      simp only [implementedVerb?, Option.ite_none_right_eq_some, Bool.and_eq_true, List.contains_iff_mem,
        Option.some.injEq, ExportedDeclaration.implementation.injEq]
      constructor
      · rintro ⟨⟨hverb, hbody⟩, rfl⟩
        exact ⟨hverb, function, ⟨rfl, rfl⟩, hbody⟩
      · rintro ⟨hverb, _, ⟨rfl, rfl⟩, hbody⟩
        exact ⟨⟨hverb, hbody⟩, rfl⟩

theorem mem_implementedVerbs : verb ∈ implementedVerbs declarations ↔
    verb ∈ verbs ∧ ∃ function, function ∈ functionsOf verb declarations := by
  simp only [implementedVerbs, List.mem_filterMap, implementedVerb?_eq_some_iff, mem_functionsOf]
  constructor
  · rintro ⟨_, hmem, hverb, function, rfl, hbody⟩
    exact ⟨hverb, function, hmem, hbody⟩
  · rintro ⟨hverb, function, hmem, hbody⟩
    exact ⟨_, hmem, hverb, function, rfl, hbody⟩

theorem overloadReturnType?_eq (declarations : List ExportedDeclaration) (verb : String) :
    overloadReturnType? declarations verb =
      (overloadsOf verb declarations).findSome? declaredReturnType? := by
  induction declarations with
  | nil => rfl
  | cons declaration rest ih =>
      unfold overloadReturnType? overloadsOf at ih ⊢
      simp only [beq_iff_eq] at ih ⊢
      rw [List.findSome?_cons, ih]
      cases declaration with
      | implementation name function => rfl
      | overload name node => by_cases hname : name = verb <;> simp [hname, List.findSome?_cons]

/-! ### Reading the declarations -/

theorem implementations_concat (declarations : List ExportedDeclaration)
    (declaration : ExportedDeclaration) :
    implementations (declarations ++ [declaration]) =
      match declaration with
      | .implementation name function =>
        if verbs.contains name && (function.field? .body).isSome then
          addImplementation (implementations declarations) name function
        else implementations declarations
      | .overload .. => implementations declarations := by
  rw [implementations, List.foldl_concat]
  rfl

theorem functionsOf_concat (verb name : String) (function : Node)
    (hbody : (function.field? .body).isSome = true) :
    functionsOf verb (declarations ++ [.implementation name function]) =
      if name = verb then functionsOf verb declarations ++ [function]
      else functionsOf verb declarations := by
  rw [functionsOf, List.filterMap_append]
  split <;> simp_all [functionsOf]

/-- A later implementation gives the site of its verb a return type, if it has none. -/
theorem siteOf?_concat (hmem : verb ∈ implementedVerbs declarations) (name : String)
    (hbody : (function.field? .body).isSome = true) :
    siteOf? (declarations ++ [.implementation name function]) verb =
      (siteOf? declarations verb).map fun site =>
        if site.verb == name && site.returnType.isNone then
          { site with returnType := declaredReturnType? function }
        else site := by
  obtain ⟨-, other, hother⟩ := mem_implementedVerbs.1 hmem
  obtain ⟨first, rest, hfunctions⟩ := List.exists_cons_of_ne_nil (List.ne_nil_of_mem hother)
  have hreturn : ((first :: rest) ++ [function]).findSome? declaredReturnType? =
      ((first :: rest).findSome? declaredReturnType?).or (declaredReturnType? function) := by
    rw [List.findSome?_append, List.findSome?_singleton]
  rw [siteOf?, siteOf?, functionsOf_concat verb name function hbody, hfunctions]
  by_cases hname : name = verb
  · rw [if_pos hname, hreturn]
    cases (first :: rest).findSome? declaredReturnType? <;> simp [hname]
  · simp [hname, Ne.symm hname]

/-- The first implementation of a verb makes its site. -/
theorem siteOf?_concat_of_notMem (hverb : verb ∈ verbs) (hmem : verb ∉ implementedVerbs declarations)
    (hbody : (function.field? .body).isSome = true) :
    siteOf? (declarations ++ [.implementation verb function]) verb =
      some ⟨verb, function, declaredReturnType? function⟩ := by
  have hnone : functionsOf verb declarations = [] := by
    refine List.eq_nil_iff_forall_not_mem.2 fun function hfunction => ?_
    exact hmem (mem_implementedVerbs.2 ⟨hverb, function, hfunction⟩)
  rw [siteOf?, functionsOf_concat verb verb function hbody, if_pos rfl, hnone]
  simp [List.findSome?_singleton]

/-- A declaration that implements no verb changes the sites of none. -/
theorem siteOf?_concat_of_none (h : implementedVerb? declaration = none)
    (hmem : verb ∈ implementedVerbs declarations) :
    siteOf? (declarations ++ [declaration]) verb = siteOf? declarations verb := by
  have hsame : functionsOf verb [declaration] = [] := by
    refine List.eq_nil_iff_forall_not_mem.2 fun function hfunction => ?_
    obtain ⟨hdeclaration, hbody⟩ := mem_functionsOf.1 hfunction
    have hverb := implementedVerb?_eq_some_iff.2
      ⟨(mem_implementedVerbs.1 hmem).1, function, (List.mem_singleton.1 hdeclaration).symm, hbody⟩
    rw [h] at hverb
    cases hverb
  rw [siteOf?, siteOf?, functionsOf, List.filterMap_append, ← functionsOf, ← functionsOf, hsame,
    List.append_nil]

theorem verb_of_siteOf? {site : HandlerSite} (h : siteOf? declarations verb = some site) :
    site.verb = verb := by
  obtain ⟨function, -, rfl⟩ := Option.map_eq_some_iff.1 h
  rfl

theorem exists_siteOf? (hmem : verb ∈ implementedVerbs declarations) :
    ∃ site, siteOf? declarations verb = some site := by
  obtain ⟨-, other, hother⟩ := mem_implementedVerbs.1 hmem
  obtain ⟨first, rest, hfunctions⟩ := List.exists_cons_of_ne_nil (List.ne_nil_of_mem hother)
  exact ⟨_, by rw [siteOf?, hfunctions]; rfl⟩

/-- There is a site for each verb. -/
theorem verbs_filterMap_siteOf? : ∀ {names : List String}, (∀ name ∈ names,
      name ∈ implementedVerbs declarations) →
    (names.filterMap (siteOf? declarations)).map (·.verb) = names
  | [], _ => rfl
  | name :: names, h => by
    obtain ⟨site, hsite⟩ := exists_siteOf? (h name List.mem_cons_self)
    rw [List.filterMap_cons_some hsite, List.map_cons, verb_of_siteOf? hsite,
      verbs_filterMap_siteOf? fun name hname => h name (List.mem_cons_of_mem _ hname)]

theorem any_filterMap_siteOf? {names : List String}
    (hnames : ∀ name ∈ names, name ∈ implementedVerbs declarations) :
    ((names.filterMap (siteOf? declarations)).any (·.verb == verb)) = true ↔ verb ∈ names := by
  conv_rhs => rw [← verbs_filterMap_siteOf? hnames]
  simp only [List.any_eq_true, beq_iff_eq, List.mem_map]

/-- What has been found before a declaration that implements no verb is what has been found after it. -/
theorem filterMap_siteOf?_of_none (h : implementedVerb? declaration = none) {names : List String}
    (hnames : ∀ name ∈ names, name ∈ implementedVerbs declarations) :
    names.filterMap (siteOf? (declarations ++ [declaration])) = names.filterMap (siteOf? declarations) :=
  List.filterMap_congr fun name hname => siteOf?_concat_of_none h (hnames name hname)

/-- An implementation of a verb that has a site changes at most the return type of this site. -/
theorem addImplementation_of_mem {names : List String}
    (hnames : ∀ name ∈ names, name ∈ implementedVerbs declarations) (hmem : verb ∈ names)
    (hbody : (function.field? .body).isSome = true) :
    addImplementation (names.filterMap (siteOf? declarations)) verb function =
      names.filterMap (siteOf? (declarations ++ [.implementation verb function])) := by
  rw [addImplementation, if_pos ((any_filterMap_siteOf? hnames).2 hmem), List.map_filterMap]
  exact List.filterMap_congr fun name hname => (siteOf?_concat (hnames name hname) verb hbody).symm

/-- An implementation of another verb adds its site. -/
theorem addImplementation_of_notMem {names : List String}
    (hnames : ∀ name ∈ names, name ∈ implementedVerbs declarations) (hverb : verb ∈ verbs)
    (hmem : verb ∉ implementedVerbs declarations) (hbody : (function.field? .body).isSome = true) :
    addImplementation (names.filterMap (siteOf? declarations)) verb function =
      (names ++ [verb]).filterMap (siteOf? (declarations ++ [.implementation verb function])) := by
  have hnew : verb ∉ names := fun h => hmem (hnames verb h)
  have hkept : names.filterMap (siteOf? (declarations ++ [.implementation verb function])) =
      names.filterMap (siteOf? declarations) := by
    refine List.filterMap_congr fun name hname => ?_
    rw [siteOf?_concat (hnames name hname) verb hbody]
    have hother : name ≠ verb := fun h => hnew (h ▸ hname)
    cases hsite : siteOf? declarations name with
    | none => rfl
    | some site => simp [verb_of_siteOf? hsite, hother]
  rw [addImplementation, if_neg (mt (any_filterMap_siteOf? hnames).1 hnew), List.filterMap_append, hkept,
    List.filterMap_cons_some (siteOf?_concat_of_notMem hverb hmem hbody)]
  rfl

/-- The invariant of the reading: after any declarations, a site has been found for each verb that they
implement. -/
theorem implementations_eq (declarations : List ExportedDeclaration) :
    implementations declarations =
      (implementedVerbs declarations).eraseDups.filterMap (siteOf? declarations) := by
  induction declarations using List.reverseRecOn with
  | nil => rfl
  | append_singleton declarations declaration ih =>
      have hnames : ∀ name ∈ (implementedVerbs declarations).eraseDups,
          name ∈ implementedVerbs declarations := fun name h => List.mem_eraseDups.1 h
      have hverbs : implementedVerbs (declarations ++ [declaration]) =
          implementedVerbs declarations ++ [declaration].filterMap implementedVerb? :=
        List.filterMap_append
      rw [implementations_concat, hverbs, ih]
      cases himplemented : implementedVerb? declaration with
      | none =>
          rw [List.filterMap_cons_none himplemented, List.filterMap_nil, List.append_nil,
            filterMap_siteOf?_of_none himplemented hnames]
          cases declaration with
          | overload => rfl
          | implementation name function =>
              exact if_neg (by simpa only [implementedVerb?, ite_eq_right_iff, reduceCtorEq, imp_false]
                using himplemented)
      | some verb =>
          obtain ⟨hverb, function, rfl, hbody⟩ := implementedVerb?_eq_some_iff.1 himplemented
          rw [List.filterMap_cons_some himplemented, List.filterMap_nil, eraseDups_concat]
          have hcond : (verbs.contains verb && (function.field? .body).isSome) = true := by
            simp [hverb, hbody]
          dsimp only
          rw [if_pos hcond]
          split
          · rename_i hmem
            exact addImplementation_of_mem hnames (List.mem_eraseDups.2 hmem) hbody
          · rename_i hmem
            exact addImplementation_of_notMem hnames hverb hmem hbody

/-! ### Handlers -/

/-- The exported declarations of a module, in the order of the source. -/
def exportsOf (program : Node) : List ExportedDeclaration :=
  program.namedChildren.flatMap exportedDeclarations

/-- The first return type that a function of the verb declares, or else an overload signature of it. -/
def returnTypeOf? (declarations : List ExportedDeclaration) (verb : String) : Option String :=
  ((functionsOf verb declarations).findSome? declaredReturnType?).or
    ((overloadsOf verb declarations).findSome? declaredReturnType?)

/-- The first function of a verb, with the return type for the verb. -/
def handlerOf? (declarations : List ExportedDeclaration) (verb : String) : Option HandlerSite :=
  (functionsOf verb declarations).head?.map fun function =>
    { verb, function, returnType := returnTypeOf? declarations verb }

theorem discoverHandlers_eq (program : Node) : discoverHandlers program =
    (implementedVerbs (exportsOf program)).eraseDups.filterMap (handlerOf? (exportsOf program)) := by
  rw [discoverHandlers, ← exportsOf, implementations_eq, List.map_filterMap]
  refine List.filterMap_congr fun verb _ => ?_
  rw [siteOf?, handlerOf?, Option.map_map]
  refine congrFun (congrArg Option.map (funext fun function => ?_)) _
  rw [Function.comp_apply, returnTypeOf?, ← overloadReturnType?_eq]
  cases (functionsOf verb (exportsOf program)).findSome? declaredReturnType? <;> rfl

/-! ### Places of declarations -/

/-- The place of a declaration: that of the statement in the module, and then that in the statement. -/
abbrev DeclarationPlace := Nat ×ₗ Nat

/-- The module exports the declaration at that place. -/
def ExportsAt (program : Node) (place : DeclarationPlace) (declaration : ExportedDeclaration) : Prop :=
  ∃ statement, program.namedChildren[(ofLex place).1]? = some statement ∧
    Exports statement (ofLex place).2 declaration

/-- A function that implements the verb stands at that place. -/
def Implements (program : Node) (verb : String) (place : DeclarationPlace) (function : Node) : Prop :=
  ExportsAt program place (.implementation verb function) ∧ (function.field? .body).isSome

/-- An implementation of the verb that declares the return type stands at that place. -/
def ImplementsAs (program : Node) (verb : String) (place : DeclarationPlace) (text : String) : Prop :=
  ∃ function, Implements program verb place function ∧ DeclaresType function text

/-- The signature of an overload that declares the return type stands at that place. -/
def SignsAs (program : Node) (verb : String) (place : DeclarationPlace) (text : String) : Prop :=
  ∃ signature, ExportsAt program place (.overload verb signature) ∧ DeclaresType signature text

theorem inOrder_exportsOf (program : Node) : InOrder (ExportsAt program) (exportsOf program) :=
  (InOrder.ofPositions program.namedChildren).flatMap inOrder_exportedDeclarations

theorem inOrder_functionsOf (program : Node) (verb : String) :
    InOrder (Implements program verb) (functionsOf verb (exportsOf program)) := by
  refine ((inOrder_exportsOf program).filterMap _).congr fun place function => ?_
  constructor
  · rintro ⟨declaration, hplace, hfunction⟩
    split at hfunction
    · obtain ⟨⟨rfl, hbody⟩, hfound⟩ := Option.ite_none_right_eq_some.1 hfunction
      cases hfound
      exact ⟨hplace, hbody⟩
    · cases hfunction
  · exact fun ⟨hplace, hbody⟩ => ⟨_, hplace, if_pos ⟨rfl, hbody⟩⟩

theorem inOrder_implementedVerbs (program : Node) :
    InOrder (fun place verb => verb ∈ verbs ∧ ∃ function, Implements program verb place function)
      (implementedVerbs (exportsOf program)) := by
  refine ((inOrder_exportsOf program).filterMap _).congr fun place verb => ?_
  simp only [implementedVerb?_eq_some_iff]
  constructor
  · rintro ⟨_, hplace, hverb, function, rfl, hbody⟩
    exact ⟨hverb, function, hplace, hbody⟩
  · exact fun ⟨hverb, function, hplace, hbody⟩ => ⟨_, hplace, hverb, function, rfl, hbody⟩

/-- The return types that the implementations of a verb declare. -/
theorem inOrder_implementedTypes (program : Node) (verb : String) :
    InOrder (ImplementsAs program verb)
      ((functionsOf verb (exportsOf program)).filterMap declaredReturnType?) := by
  refine ((inOrder_functionsOf program verb).filterMap _).congr fun place text => ?_
  simp only [declaredReturnType?_eq_some_iff, ImplementsAs]

/-- The return types that the overload signatures of a verb declare. -/
theorem inOrder_signedTypes (program : Node) (verb : String) :
    InOrder (SignsAs program verb)
      ((overloadsOf verb (exportsOf program)).filterMap declaredReturnType?) := by
  refine (((inOrder_exportsOf program).filterMap _).filterMap _).congr fun place text => ?_
  simp only [declaredReturnType?_eq_some_iff, SignsAs]
  constructor
  · rintro ⟨signature, ⟨declaration, hplace, hsignature⟩, htype⟩
    split at hsignature
    · obtain ⟨rfl, hfound⟩ := Option.ite_none_right_eq_some.1 hsignature
      cases hfound
      exact ⟨signature, hplace, htype⟩
    · cases hsignature
  · exact fun ⟨signature, hplace, htype⟩ => ⟨signature, ⟨_, hplace, if_pos rfl⟩, htype⟩

theorem findSome?_functionsOf_eq_none_iff :
    (functionsOf verb (exportsOf program)).findSome? declaredReturnType? = none ↔
      ∀ place text, ¬ ImplementsAs program verb place text := by
  rw [← List.head?_filterMap, List.head?_eq_none_iff, List.eq_nil_iff_forall_not_mem]
  simp only [(inOrder_implementedTypes program verb).mem_iff, not_exists]
  exact forall_comm

theorem returnTypeOf?_eq_some_iff : returnTypeOf? (exportsOf program) verb = some text ↔
    IsFirst (ImplementsAs program verb) text ∨
      (∀ place text, ¬ ImplementsAs program verb place text) ∧ IsFirst (SignsAs program verb) text := by
  rw [returnTypeOf?, Option.or_eq_some_iff, findSome?_functionsOf_eq_none_iff, ← List.head?_filterMap,
    ← List.head?_filterMap, (inOrder_implementedTypes program verb).head?_eq_some_iff,
    (inOrder_signedTypes program verb).head?_eq_some_iff]

/-- There is one handler for each verb that the module implements, in the order of the first
implementations. Its function is the first implementation, and its return type is the first that an
implementation declares, or else the first that an overload signature declares, wherever it stands. -/
theorem discoverHandlers_first (program : Node) :
    ((discoverHandlers program).map (·.verb)).Nodup ∧
    (∀ verb, verb ∈ (discoverHandlers program).map (·.verb) ↔
      verb ∈ verbs ∧ ∃ place function, Implements program verb place function) ∧
    ((discoverHandlers program).Pairwise fun site later =>
      ∃ place function, Implements program site.verb place function ∧
        ∀ other function', Implements program later.verb other function' → place < other) ∧
    ∀ site ∈ discoverHandlers program,
      IsFirst (Implements program site.verb) site.function ∧
      ∀ text, site.returnType = some text ↔
        IsFirst (ImplementsAs program site.verb) text ∨
        (∀ place text, ¬ ImplementsAs program site.verb place text) ∧
          IsFirst (SignsAs program site.verb) text := by
  have hverbs : (discoverHandlers program).map (·.verb) =
      (implementedVerbs (exportsOf program)).eraseDups := by
    rw [discoverHandlers, List.map_map, implementations_eq]
    exact verbs_filterMap_siteOf? fun name h => List.mem_eraseDups.1 h
  have hmem : ∀ verb, verb ∈ (discoverHandlers program).map (·.verb) ↔
      verb ∈ verbs ∧ ∃ place function, Implements program verb place function := fun verb => by
    rw [hverbs, List.mem_eraseDups, (inOrder_implementedVerbs program).mem_iff, exists_and_left]
  refine ⟨(distinctSites_discoverHandlers program).1, hmem, ?_, fun site hsite => ?_⟩
  · have horder := (inOrder_implementedVerbs program).pairwise_eraseDups
    rw [← hverbs, List.pairwise_map] at horder
    refine horder.imp_of_mem fun {site later} hsite hlater hbefore => ?_
    obtain ⟨place, ⟨-, function, hplace⟩, hbefore⟩ := hbefore
    have hverb := ((hmem later.verb).1 (List.mem_map_of_mem hlater)).1
    exact ⟨place, function, hplace, fun other function' hother => hbefore other ⟨hverb, function', hother⟩⟩
  · rw [discoverHandlers_eq] at hsite
    obtain ⟨verb, -, hverb⟩ := List.mem_filterMap.1 hsite
    obtain ⟨function, hfunction, rfl⟩ := Option.map_eq_some_iff.1 hverb
    exact ⟨(inOrder_functionsOf program verb).head?_eq_some_iff.1 hfunction,
      fun text => returnTypeOf?_eq_some_iff⟩

/-- An overload in front of two functions in one statement, the second of which is the implementation. -/
def overloadedSource : String :=
  "export function GET(): A;\nexport const POST = () => 1, GET = () => 2;\n" ++
    "export function PUT(): B \x7b\n  return 3;\n\x7d\n"

/-- Three verbs are found, and no implementation of `GET` declares a return type. -/
def findsOverload (program : Node) : Bool :=
  (discoverHandlers program).map (·.verb) == ["POST", "GET", "PUT"] &&
    (functionsOf "GET" (exportsOf program)).findSome? declaredReturnType? == none &&
    (discoverHandlers program).any fun site => site.verb == "GET" && site.returnType == some "A"

set_option maxRecDepth 1000000 in
/-- The overload has the return type of the handler, and the variables keep their order. -/
theorem discoverHandlers_first_overloaded : ∃ program site,
    Grammar.parse? overloadedSource = some program ∧ site ∈ discoverHandlers program ∧
      (discoverHandlers program).map (·.verb) = ["POST", "GET", "PUT"] ∧
      site.returnType = some "A" ∧ IsFirst (Implements program "GET") site.function ∧
      (∀ place text, ¬ ImplementsAs program "GET" place text) ∧ IsFirst (SignsAs program "GET") "A" := by
  have hcheck : (Grammar.parse? overloadedSource).any findsOverload = true := by decide +kernel
  obtain ⟨program, hparse, h⟩ := (Option.any_eq_true _ _).1 hcheck
  simp only [findsOverload, Bool.and_eq_true, beq_iff_eq] at h
  obtain ⟨⟨hverbs, hnone⟩, h⟩ := h
  obtain ⟨site, hsite, h⟩ := List.any_eq_true.1 h
  simp only [Bool.and_eq_true, beq_iff_eq] at h
  have hundeclared := findSome?_functionsOf_eq_none_iff.1 hnone
  obtain ⟨hfirst, htype⟩ := (discoverHandlers_first program).2.2.2 site hsite
  rw [h.1] at hfirst htype
  refine ⟨program, site, hparse, hsite, hverbs, h.2, hfirst, hundeclared, ?_⟩
  rcases (htype "A").1 h.2 with ⟨place, hdeclared, -⟩ | ⟨-, hsigned⟩
  · exact absurd hdeclared (hundeclared place "A")
  · exact hsigned

end RouteBinder.Analysis
