import RouteBinder.Analysis.Module
import RouteBinder.Proofs.Analysis.ScopeSizes

/-!
# RouteBinder.Proofs.Analysis.Termination

**When an analysis comes to an end.** Of every handler at most one expression is typed: the value of the
first response of success, unless the return type is declared (`inferredValue?`). The analysis of a source
without syntax errors has a result exactly when some depth of recursion is enough for each of these
expressions, and then a depth that depends on nothing but the source is (`typeWithin_of_typeOf`). A
function that returns a call of itself has no such depth; functions that do not call themselves always
have one (`exists_analyze_of_rankedBy`).
-/

namespace RouteBinder.Analysis

open Source FileSystem Typing Body

/-! ### The expression that is typed -/

/-- The node constructs a response, or calls a helper that makes one. -/
def IsResponse (node : Node) (callee : String) : Prop :=
  (node.kind = .newExpression ∧ callee ∈ responseClasses) ∨
    (node.kind = .callExpression ∧ callee ∈ jsonHelpers)

instance (node : Node) (callee : String) : Decidable (IsResponse node callee) :=
  inferInstanceAs (Decidable (_ ∨ _))

/-- The arguments of a response do not tell of failure. -/
def Succeeds (args : List Node) : Prop := args[1]?.any tellsFailure = false

instance (args : List Node) : Decidable (Succeeds args) := inferInstanceAs (Decidable (_ = _))

/-- The value in the arguments of a response: a constructed one is taken out of a serialising call. -/
def carriedValue? (response : Node) (args : List Node) : Option Node :=
  if response.kind = .newExpression then args.head?.bind serialized? else args.head?

/-- The value that a returned response of success carries, if it carries one; nothing for anything that is
not a response of success. -/
def successValue? (returned : Node) : Option (Option Node) :=
  match returned.unwrapAwait? with
  | none => none
  | some response =>
    match response.callParts? with
    | none => none
    | some (callee, args) =>
      if IsResponse response callee ∧ Succeeds args then some (carriedValue? response args) else none

/-- The expression whose type is what a handler returns, if its declared return type does not say it. -/
def inferredValue? (function : Node) (declared : Option String) : Option Node :=
  match (present (declared.map settledType)).filter fun text =>
      !responseClasses.contains (genericBase text) with
  | some _ => none
  | none => (function.returnedExpressions.findSome? successValue?).join

/-- A construction and a call are recognised apart from each other. -/
theorem responseType?_eq (scope : Scope) (returned : Node) :
    responseType? scope returned =
      match successValue? returned with
      | none => .ok none
      | some value => (typeOfValue scope value).map some := by
  unfold responseType? successValue?
  cases returned.unwrapAwait? with
  | none => rfl
  | some response =>
      dsimp only
      cases response.callParts? with
      | none => rfl
      | some parts =>
          obtain ⟨callee, args⟩ := parts
          by_cases hnew : response.kind = .newExpression
          · cases hfailure : args[1]?.any tellsFailure <;> by_cases hcallee : callee ∈ responseClasses <;>
              simp [IsResponse, Succeeds, carriedValue?, hnew, hfailure, hcallee]
          · cases hfailure : args[1]?.any tellsFailure <;>
              by_cases hcall : response.kind = .callExpression ∧ callee ∈ jsonHelpers <;>
              simp [IsResponse, Succeeds, carriedValue?, hnew, hfailure, hcall]

/-- Only the first response of success is looked at. -/
theorem firstResponseType?_eq (scope : Scope) (returned : List Node) :
    firstResponseType? scope returned =
      match returned.findSome? successValue? with
      | none => .ok none
      | some value => (typeOfValue scope value).map some := by
  induction returned with
  | nil => rfl
  | cons first rest ih =>
      rw [firstResponseType?, responseType?_eq, List.findSome?_cons]
      cases successValue? first with
      | none => exact ih
      | some value =>
          dsimp only
          cases typeOfValue scope value <;> rfl

theorem exists_outputType_iff {scope : Scope} {function : Node} {declared : Option String} :
    (∃ type, outputType scope function declared = .ok type) ↔
      ∀ value, inferredValue? function declared = some value → ∃ type, typeOf scope value = .ok type := by
  unfold outputType inferredValue?
  dsimp only
  cases (present (declared.map settledType)).filter fun text =>
      !responseClasses.contains (genericBase text) with
  | some text => exact iff_of_true ⟨_, rfl⟩ fun _ h => by cases h
  | none =>
      dsimp only
      rw [firstResponseType?_eq]
      cases function.returnedExpressions.findSome? successValue? with
      | none => exact iff_of_true ⟨_, rfl⟩ fun _ h => by cases h
      | some value =>
          cases value with
          | none => exact iff_of_true ⟨_, rfl⟩ fun _ h => by cases h
          | some value =>
              -- Only here an expression is typed: the first success response carries a value.
              constructor
              · rintro ⟨type, h⟩ _ heq
                obtain rfl := Option.some.inj heq
                cases ht : typeOf scope value with
                | error cause =>
                    simp only [typeOfValue, ht] at h
                    cases h
                | ok type' => exact ⟨type', rfl⟩
              · intro h
                obtain ⟨type, ht⟩ := h value rfl
                simp only [typeOfValue, ht]
                exact ⟨type, rfl⟩

theorem atOrInside_of_serialized? {body value : Node} (h : serialized? body = some value) :
    value.AtOrInside body := by
  unfold serialized? at h
  split at h
  · cases h
  · rename_i inner hinner
    have hunwrapped := Node.atOrInside_of_unwrap? hinner
    split at h
    · rename_i callee args _ hparts
      split at h
      · exact (Node.inside_of_callParts? hparts (List.mem_of_mem_head? h)).atOrInside.trans hunwrapped
      · cases h
        exact hunwrapped
    · cases h
      exact hunwrapped

theorem inside_of_carriedValue? {node value : Node} {args : List Node}
    (hargs : ∀ argument ∈ args, argument.Inside node)
    (h : carriedValue? node args = some value) : value.Inside node := by
  unfold carriedValue? at h
  split at h
  · obtain ⟨first, hfirst, hvalue⟩ := Option.bind_eq_some_iff.1 h
    exact (atOrInside_of_serialized? hvalue).trans_inside (hargs first (List.mem_of_mem_head? hfirst))
  · exact hargs value (List.mem_of_mem_head? h)

/-- The expression that is typed stands in the function. -/
theorem atOrInside_of_inferredValue? {function value : Node} {declared : Option String}
    (h : inferredValue? function declared = some value) : value.AtOrInside function := by
  unfold inferredValue? at h
  split at h
  · cases h
  · obtain ⟨returned, hreturned, hsuccess⟩ :=
      List.exists_of_findSome?_eq_some (Option.join_eq_some_iff.1 h)
    refine Node.AtOrInside.trans ?_ (Node.atOrInside_of_mem_returnedExpressions hreturned)
    unfold successValue? at hsuccess
    split at hsuccess
    · cases hsuccess
    · rename_i response hresponse
      refine Node.AtOrInside.trans ?_ (Node.atOrInside_of_unwrapAwait? hresponse)
      split at hsuccess
      · cases hsuccess
      · rename_i callee args hparts
        split at hsuccess
        · have hargs : ∀ argument ∈ args, argument.Inside response := fun _ =>
            Node.inside_of_callParts? hparts
          exact (inside_of_carriedValue? hargs (Option.some.inj hsuccess)).atOrInside
        · cases hsuccess

/-! ### Handlers of a module -/

/-- The scope in which the body of a handler is typed. -/
def handlerScope (program : Node) (site : HandlerSite) : Scope :=
  .ofFunction site.function (.ofModule program)

theorem exists_describe_iff [Recovery] {program : Node} {site : HandlerSite} :
    (∃ handler, describe program (Scope.ofModule program) site = .ok handler) ↔
      ∃ type, outputType (handlerScope program site) site.function site.returnType = .ok type := by
  unfold describe
  change (∃ handler, (outputType (handlerScope program site) site.function site.returnType >>= _) =
    Except.ok handler) ↔ _
  cases outputType (handlerScope program site) site.function site.returnType with
  | error cause => exact iff_of_false (by rintro ⟨_, h⟩; cases h) (by rintro ⟨_, h⟩; cases h)
  | ok type => exact iff_of_true ⟨_, rfl⟩ ⟨_, rfl⟩

theorem exists_mapM_iff {α β ε : Type} {f : α → Except ε β} {items : List α} :
    (∃ results, items.mapM f = .ok results) ↔ ∀ item ∈ items, ∃ result, f item = .ok result := by
  induction items with
  | nil => exact iff_of_true ⟨[], rfl⟩ nofun
  | cons first rest ih =>
      rw [List.forall_mem_cons, ← ih, List.mapM_cons]
      cases f first with
      | error cause =>
          refine iff_of_false (by rintro ⟨_, h⟩; cases h) ?_
          rintro ⟨⟨_, h⟩, -⟩
          cases h
      | ok result =>
          cases rest.mapM f with
          | error cause =>
              refine iff_of_false (by rintro ⟨_, h⟩; cases h) ?_
              rintro ⟨-, _, h⟩
              cases h
          | ok results => exact iff_of_true ⟨_, rfl⟩ ⟨⟨_, rfl⟩, _, rfl⟩

theorem size_of_mem_exportedDeclarations {statement function : Node} {name : String}
    (h : .implementation name function ∈ exportedDeclarations statement) :
    function.size ≤ statement.size := by
  unfold exportedDeclarations at h
  split at h
  · split at h
    · cases h
    · rename_i declaration hdeclaration
      have hlt := Node.size_field?_lt hdeclaration
      have hdeclarators : .implementation name function ∈ declaration.declarators.filterMap
          (fun declarator => ((declarator.field? .value).filter isHandlerValue).map fun function =>
            ExportedDeclaration.implementation (declarator.fieldText .name) function) →
          function.size ≤ statement.size := by
        intro h
        obtain ⟨declarator, hd, hmap⟩ := List.mem_filterMap.1 h
        obtain ⟨value, hvalue, heq⟩ := Option.map_eq_some_iff.1 hmap
        cases heq
        have := (Node.inside_of_mem_declarators hd).size_lt
        have := Node.size_field?_lt (Option.filter_eq_some_iff.1 hvalue).1
        omega
      split at h
      · cases List.mem_singleton.1 h
      · cases List.mem_singleton.1 h
        exact hlt.le
      · cases List.mem_singleton.1 h
        exact hlt.le
      · exact hdeclarators h
      · exact hdeclarators h
      · cases h
  · cases h

/-- Recording implementations brings no other functions. -/
theorem function_of_mem_addImplementation {sites : List HandlerSite} {verb : String}
    {function : Node} {site : HandlerSite} (h : site ∈ addImplementation sites verb function) :
    site.function = function ∨ ∃ other ∈ sites, site.function = other.function := by
  unfold addImplementation at h
  dsimp only at h
  split at h
  · obtain ⟨other, ho, rfl⟩ := List.mem_map.1 h
    refine Or.inr ⟨other, ho, ?_⟩
    split <;> rfl
  · rcases List.mem_append.1 h with h | h
    · exact Or.inr ⟨site, h, rfl⟩
    · exact Or.inl (congrArg HandlerSite.function (List.mem_singleton.1 h))

theorem function_of_mem_implementations {declarations : List ExportedDeclaration}
    {site : HandlerSite} (h : site ∈ implementations declarations) :
    ∃ name, .implementation name site.function ∈ declarations := by
  unfold implementations at h
  -- Every step keeps that all functions so far come from declarations.
  refine List.foldlRecOn (motive := fun sites => ∀ other ∈ sites,
    ∃ name, .implementation name other.function ∈ declarations) declarations _ ?_ ?_ site h
  · intro other ho
    exact absurd ho List.not_mem_nil
  · intro sites hsites declaration hdeclaration
    cases declaration with
    | overload name node => exact hsites
    | implementation name function =>
        dsimp only
        split
        · intro other ho
          rcases function_of_mem_addImplementation ho with heq | ⟨old, hold, heq⟩
          · exact ⟨name, heq ▸ hdeclaration⟩
          · exact heq ▸ hsites old hold
        · exact hsites

theorem size_of_mem_discoverHandlers {program : Node} {site : HandlerSite}
    (h : site ∈ discoverHandlers program) : site.function.size ≤ program.size := by
  obtain ⟨other, ho, rfl⟩ := List.mem_map.1 h
  obtain ⟨name, hname⟩ := function_of_mem_implementations ho
  obtain ⟨statement, hs, hdeclaration⟩ := List.mem_flatMap.1 hname
  have := size_of_mem_exportedDeclarations hdeclaration
  have := Node.size_namedChild_lt hs
  change other.function.size ≤ program.size
  omega

/-! ### The analysis -/

theorem exists_analyze_iff_typeOf [Recovery] {source : String} {program : Node}
    (hparse : Grammar.parse? source = some program) (origin : Option Path) :
    (∃ analysis, analyze source origin = .ok analysis) ↔
      ∀ site ∈ discoverHandlers program, ∀ value,
        inferredValue? site.function site.returnType = some value →
          ∃ type, typeOf (handlerScope program site) value = .ok type := by
  have hhandlers : (∃ handlers, (discoverHandlers program).mapM
      (describe program (Scope.ofModule program)) = .ok handlers) ↔
      ∃ analysis, analyze source origin = .ok analysis := by
    unfold analyze
    rw [hparse]
    dsimp only
    cases (discoverHandlers program).mapM (describe program (Scope.ofModule program)) with
    | error cause => exact iff_of_false (by rintro ⟨_, h⟩; cases h) (by rintro ⟨_, h⟩; cases h)
    | ok handlers => exact iff_of_true ⟨_, rfl⟩ ⟨_, rfl⟩
  rw [← hhandlers, exists_mapM_iff]
  refine forall₂_congr fun site _ => ?_
  rw [exists_describe_iff, exists_outputType_iff]

/-- Whatever the types of a handler's expressions are found to be, a depth that depends on the source alone
is enough to find them. -/
theorem typeWithin_of_typeOf {program node : Node} {site : HandlerSite} {type : TypeExpr}
    (hsite : site ∈ discoverHandlers program) (hnode : node.size ≤ program.size)
    (h : typeOf (handlerScope program site) node = .ok type) :
    typeWithin (handlerScope program site)
      (sufficientDepth (handlerScope program site) program.size) [] node = .ok type :=
  typeWithin_sufficientDepth (fitsIn_ofFunction (size_of_mem_discoverHandlers hsite)) hnode h

/-- The expressions of all handlers whose types are looked for are typed within that depth. -/
def settles (program : Node) : Bool :=
  (discoverHandlers program).all fun site =>
    (inferredValue? site.function site.returnType).all fun value =>
      (typeWithin (handlerScope program site)
        (sufficientDepth (handlerScope program site) program.size) [] value).toBool

theorem settles_iff {program : Node} :
    settles program = true ↔ ∀ site ∈ discoverHandlers program, ∀ value,
      inferredValue? site.function site.returnType = some value →
        ∃ type, typeOf (handlerScope program site) value = .ok type := by
  rw [settles, List.all_eq_true]
  refine forall₂_congr fun site hsite => ?_
  rw [Option.all_eq_true]
  refine forall₂_congr fun value hvalue => ⟨fun h => ?_, ?_⟩
  · cases htype : typeWithin (handlerScope program site)
        (sufficientDepth (handlerScope program site) program.size) [] value with
    | error cause =>
        rw [htype] at h
        cases h
    | ok type => exact ⟨type, typeOf_of_typeWithin htype⟩
  · rintro ⟨type, htype⟩
    have hsize := (atOrInside_of_inferredValue? hvalue).size_le
    rw [typeWithin_of_typeOf hsite (hsize.trans (size_of_mem_discoverHandlers hsite)) htype]
    rfl

/-- An analysis comes to an end exactly when some depth of recursion is enough to type the values that its
handlers respond with. Whatever some depth is enough for, one that depends on the source alone is. -/
theorem exists_analyze_iff [Recovery] {source : String} {program : Node}
    (hparse : Grammar.parse? source = some program) (origin : Option Path) :
    ((∃ analysis, analyze source origin = .ok analysis) ↔
      ∀ site ∈ discoverHandlers program, ∀ value,
        inferredValue? site.function site.returnType = some value →
          ∃ depth type, typeWithin (handlerScope program site) depth [] value = .ok type) ∧
    ∀ site ∈ discoverHandlers program, ∀ node : Node, node.size ≤ program.size →
      ∀ depth type, typeWithin (handlerScope program site) depth [] node = .ok type →
        typeWithin (handlerScope program site)
          (sufficientDepth (handlerScope program site) program.size) [] node = .ok type := by
  constructor
  · rw [exists_analyze_iff_typeOf hparse origin]
    refine forall₂_congr fun site hsite => forall₂_congr fun value hvalue => ⟨?_, ?_⟩
    · rintro ⟨type, htype⟩
      have hsize := (atOrInside_of_inferredValue? hvalue).size_le
      exact ⟨_, type,
        typeWithin_of_typeOf hsite (hsize.trans (size_of_mem_discoverHandlers hsite)) htype⟩
    · rintro ⟨depth, type, htype⟩
      exact ⟨type, typeOf_of_typeWithin htype⟩
  · intro site hsite node hnode depth type htype
    exact typeWithin_of_typeOf hsite hnode (typeOf_of_typeWithin htype)

/-- A module with a handler that responds with what a function returns. -/
def respondingWith (returned : String) : String :=
  "function f() \x7b\n  return " ++ returned ++
    ";\n\x7d\nexport function GET() \x7b\n  return Response.json(f());\n\x7d\n"

attribute [local instance] Recovery.verbatim

set_option maxRecDepth 1000000 in
/-- A number is returned, and all types are found. -/
theorem exists_analyze_respondingWith_number : ∃ program analysis,
    Grammar.parse? (respondingWith "1") = some program ∧
      analyze (respondingWith "1") none = .ok analysis := by
  have hcheck : (Grammar.parse? (respondingWith "1")).any settles = true := by decide +kernel
  obtain ⟨program, hparse, hsettles⟩ := (Option.any_eq_true _ _).1 hcheck
  obtain ⟨analysis, hanalysis⟩ := (exists_analyze_iff hparse none).1.2 fun site hsite value hvalue => by
    obtain ⟨type, htype⟩ := settles_iff.1 hsettles site hsite value hvalue
    have hsize := (atOrInside_of_inferredValue? hvalue).size_le
    exact ⟨_, type,
      typeWithin_of_typeOf hsite (hsize.trans (size_of_mem_discoverHandlers hsite)) htype⟩
  exact ⟨program, analysis, hparse, hanalysis⟩

set_option maxRecDepth 1000000 in
/-- The function returns a call of itself. There are no syntax errors, and still there is no analysis. -/
theorem not_exists_analyze_respondingWith_call : ∃ program,
    Grammar.parse? (respondingWith "f()") = some program ∧
      ¬ ∃ analysis, analyze (respondingWith "f()") none = .ok analysis := by
  have hcheck : (Grammar.parse? (respondingWith "f()")).any (!settles ·) = true := by decide +kernel
  obtain ⟨program, hparse, hsettles⟩ := (Option.any_eq_true _ _).1 hcheck
  refine ⟨program, hparse, fun hanalysis => ?_⟩
  have hthere := settles_iff.2 ((exists_analyze_iff_typeOf hparse none).1 hanalysis)
  rw [hthere] at hsettles
  cases hsettles

/-! ### Functions that do not call themselves -/

/-- A call of the name stands in the node. -/
def Calls (node : Node) (name : String) : Prop :=
  ∃ call : Node, call.AtOrInside node ∧ call.kind = .callExpression ∧ call.fieldText .function = name

/-- Functions in the scope only call functions of lower rank, so none calls itself, also not through
others. -/
def Scope.RankedBy (scope : Scope) (rank : String → Nat) : Prop :=
  ∀ name binding function, scope.lookup? name = some binding → binding.function = some function →
    ∀ other called callee, Calls function other → scope.lookup? other = some called →
      called.function = some callee → rank other < rank name

theorem Calls.trans {part node : Node} {name : String} (h : Calls part name)
    (hpart : part.AtOrInside node) : Calls node name := by
  obtain ⟨call, hcall, hkind, htext⟩ := h
  exact ⟨call, hcall.trans hpart, hkind, htext⟩

/-- The functions that are called in the node have lower ranks than those that are being typed. -/
def Lower (scope : Scope) (rank : String → Nat) (entered : List String) (node : Node) : Prop :=
  ∀ name called callee, Calls node name → scope.lookup? name = some called →
    called.function = some callee → ∀ other ∈ entered, rank name < rank other

/-- No call comes back to a function that is being typed, because the ranks of the called functions get
lower and lower. -/
theorem typeWhile_of_rankedBy {scope : Scope} {rank : String → Nat} (hranked : scope.RankedBy rank) :
    ∀ following entered node, Lower scope rank entered node →
      Refines (fun _ => False) (typeWhile scope following entered node)
        (typeWhile scope following entered node) := by
  refine typeWhile.induct scope _ fun following entered node ihpart ihname ihfunction hlower => ?_
  rw [typeWhile_eq]
  refine expressionRule_refines (fun part hpart => ?_) (nameRule_refines ?_)
    fun hkind => calledRule_refines ?_
  · rw [if_pos hpart.size_lt]
    exact ihpart part hpart.size_lt fun name called callee hcalls =>
      hlower name called callee (hcalls.trans hpart.atOrInside)
  · intro name binding value hl _ hfresh
    exact ihname name binding hl value hfresh fun _ _ _ _ _ _ other ho => absurd ho List.not_mem_nil
  · intro binding function hl hf
    -- The called function ranks below all that were entered, so it is none of them.
    have hcalled := hlower _ binding function ⟨node, .refl _, hkind, rfl⟩ hl hf
    have hfresh : entered.contains (node.fieldText .function) = false := by
      rw [← Bool.not_eq_true, List.contains_iff_mem]
      exact fun hn => Nat.lt_irrefl _ (hcalled _ hn)
    rw [if_pos hfresh]
    refine returnRule_refines fun part hpart => ihfunction _ binding hl hfresh part ?_
    intro name called callee hcalls hl' hf' other ho
    have hrank := hranked _ binding function hl hf name called callee
      (hcalls.trans hpart.atOrInside) hl' hf'
    rcases List.mem_cons.1 ho with rfl | ho
    · exact hrank
    · exact Nat.lt_trans hrank (hcalled other ho)

theorem typeOf_of_rankedBy {scope : Scope} {rank : String → Nat} (h : scope.RankedBy rank)
    (node : Node) : ∃ type, typeOf scope node = .ok type :=
  refines_self_iff.1 (typeWhile_of_rankedBy h [] [] node fun _ _ _ _ _ _ _ ho =>
    absurd ho List.not_mem_nil)

/-- A source without syntax errors is analyzed when none of its functions calls itself, also not through
others. -/
theorem exists_analyze_of_rankedBy [Recovery] {source : String} {program : Node}
    (hparse : Grammar.parse? source = some program)
    (h : ∀ site ∈ discoverHandlers program, ∃ rank, (handlerScope program site).RankedBy rank)
    (origin : Option Path) : ∃ analysis, analyze source origin = .ok analysis := by
  refine (exists_analyze_iff_typeOf hparse origin).2 fun site hsite value _ => ?_
  obtain ⟨rank, hrank⟩ := h site hsite
  exact typeOf_of_rankedBy hrank value

end RouteBinder.Analysis
