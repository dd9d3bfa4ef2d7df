import RouteBinder.Proofs.Body.BlockNames
import RouteBinder.Proofs.Emit.ReplayedNames

/-!
# RouteBinder.Proofs.Emit.ClashingNames

**Names around a replayed body that the body declares, too.** In front of the body stand the declarations of
the request and of the headers and cookies (`declaredInFront`), in the same block as its statements. Around
that block stand the options (`boundByOptions`). Only the query makes room for a variable of the body: it gets
another name then. All other names are taken as they come, and a body that declares one of them in its block

* declares it a second time, if it refers to it or needs a stand-in for the request (`DeclaredAgain`),
* or hides the option of this name from its own statements (`HidesOption`).

A plain declaration of a name already refers to it, so a handler with a variable called like its request, or
`headersVal`, always declares it twice. `clashes_iff` says that there are no other clashes.
-/

namespace RouteBinder.Emit.Server

open Source Analysis Body Route Text

variable {handler : Handler} {directories : List String} {body name : String}

/-! ### Names around a body -/

section

variable [Recovery]

/-- The options of the member with the names that they are bound to. -/
def namedOptions (handler : Handler) (directories : List String) : List (String × String) :=
  let body := replayedBody handler directories
  boundOptions handler (takesQuery handler body) (queryName body)

/-- The names that the options of the member are bound to. -/
def boundByOptions (handler : Handler) (directories : List String) : List String :=
  (namedOptions handler directories).map Prod.snd

/-- The names that the member declares in front of the body. -/
def declaredInFront (handler : Handler) (directories : List String) : List String :=
  let body := replayedBody handler directories
  preambleNames handler body (needsRequest handler body)

/-- The ways in which a name that a body declares in its block is declared in front of it, too. -/
inductive DeclaredAgain (handler : Handler) (body name : String) : Prop where
  /-- The body refers to the name, and takes it for its request. -/
  | request (hname : name = handler.request) (href : name ∈ references body)
  /-- The body refers to the query by its usual name, so a request is made from it. -/
  | standIn (hname : name = handler.request) (hmarker : handler.marker ≠ .paginated)
      (hquery : "searchParams" ∈ references body)
  /-- The body refers to the name, and takes it for what it reads from the surrounding request. -/
  | surroundings (hname : name = headersName ∨ name = cookiesName) (href : name ∈ references body)

/-- The ways in which a name that a body declares in its block is the name of an option. -/
inductive HidesOption (handler : Handler) (body name : String) : Prop where
  /-- The payload has the name, whatever the body declares. -/
  | payload (huses : handler.usesBody = true) (hname : name = payloadName handler)
  /-- A function or a class has the usual name of the query; only variables give the query another one. -/
  | query (hname : name = "searchParams") (hvariable : declaresName body "searchParams" = false)
  /-- The query has this name because a variable has the usual one. -/
  | renamedQuery (hname : name = "__searchParams") (hvariable : declaresName body "searchParams" = true)
      (htakes : takesQuery handler body = true)

/-! ### Clashes -/

theorem needsRequest_iff : needsRequest handler body = true ↔ handler.request ∈ references body ∨
    (handler.marker ≠ .paginated ∧ "searchParams" ∈ references body) := by
  simp [needsRequest]

theorem mem_declaredInFront_iff : name ∈ declaredInFront handler directories ↔
    DeclaredAgain handler (replayedBody handler directories) name := by
  have hmem : name ∈ declaredInFront handler directories ↔
      (needsRequest handler (replayedBody handler directories) = true ∧ name = handler.request) ∨
        (name = headersName ∨ name = cookiesName) ∧
          name ∈ references (replayedBody handler directories) := by
    rw [declaredInFront, preambleNames, List.mem_append, List.mem_filter, List.contains_iff_mem,
      List.mem_pair]
    split <;> simp [*]
  rw [hmem, needsRequest_iff]
  constructor
  · intro h
    rcases h with ⟨href | ⟨hmarker, hquery⟩, hname⟩ | ⟨hname, href⟩
    · exact .request hname (hname ▸ href)
    · exact .standIn hname hmarker hquery
    · exact .surroundings hname href
  · intro h
    cases h with
    | request hname href => exact Or.inl ⟨Or.inl (hname ▸ href), hname⟩
    | standIn hname hmarker hquery => exact Or.inl ⟨Or.inr ⟨hmarker, hquery⟩, hname⟩
    | surroundings hname href => exact Or.inr ⟨hname, href⟩

/-- A body that refers to the query by its usual name takes one. -/
theorem takesQuery_of_mem_references (h : "searchParams" ∈ references body) :
    takesQuery handler body = true := by
  rw [takesQuery, Bool.or_eq_true, needsRequest_iff, beq_iff_eq]
  by_cases hmarker : handler.marker = .paginated
  · exact Or.inl hmarker
  · exact Or.inr (Or.inr ⟨hmarker, h⟩)

theorem mem_boundByOptions_iff (h : name ∈ blockNames (replayedBody handler directories)) :
    name ∈ boundByOptions handler directories ↔
      HidesOption handler (replayedBody handler directories) name := by
  rw [boundByOptions, namedOptions, mem_boundOptions]
  generalize replayedBody handler directories = body at h
  constructor
  · intro hbound
    rcases hbound with ⟨huses, hname⟩ | ⟨htakes, hname⟩
    · exact .payload huses hname
    · rw [queryName] at hname
      split at hname
      · rename_i hvariable
        exact .renamedQuery hname hvariable htakes
      · rename_i hvariable
        exact .query hname (Bool.eq_false_iff.2 hvariable)
  · intro hhides
    cases hhides with
    | payload huses hname => exact Or.inl ⟨huses, hname⟩
    | query hname hvariable =>
        subst hname
        -- What is called like the query is no variable, so the body refers to it.
        have href := (declaresName_or_mem_references h).resolve_left (by simp [hvariable])
        exact Or.inr ⟨takesQuery_of_mem_references href, by simp [queryName, hvariable]⟩
    | renamedQuery hname hvariable htakes =>
        exact Or.inr ⟨htakes, by simp [queryName, hname, hvariable]⟩

/-- A member is made of the names that it declares in front of its body and of those that it binds to its
options. Whatever the body declares in its block it refers to, shorthands aside. It declares one of these
names exactly in the ways of `DeclaredAgain` and `HidesOption`. -/
theorem clashes_iff {program : Node} {module : Scope} {site : HandlerSite}
    (h : describe program module site = .ok handler) (hmarker : handler.marker ≠ .redirect)
    (directories : List String) :
    (∃ rest lines,
      member handler directories =
        wrapped
          (parametersText handler
            ((namedOptions handler directories).map fun (key, name) => optionPattern key name) rest)
          (withPreamble lines (replayedBody handler directories)) ∧
      List.Forall₂ Declares lines (declaredInFront handler directories)) ∧
    handler.request = (requestName? site.function).getD "req" ∧
    (∀ name ∈ blockNames (replayedBody handler directories),
      (name ∈ references (replayedBody handler directories) ∨
        name ∈ shorthandNames (replayedBody handler directories)) ∧
      (name ∈ declaredInFront handler directories ↔
        DeclaredAgain handler (replayedBody handler directories) name) ∧
      (name ∈ boundByOptions handler directories ↔
        HidesOption handler (replayedBody handler directories) name)) ∧
    ((declaredInFront handler directories ++ boundByOptions handler directories).Disjoint
        (blockNames (replayedBody handler directories)) ↔
      ∀ name ∈ blockNames (replayedBody handler directories),
        ¬ DeclaredAgain handler (replayedBody handler directories) name ∧
          ¬ HidesOption handler (replayedBody handler directories) name) := by
  refine ⟨member_eq_wrapped hmarker, (described_of_describe h).request, fun name hname =>
    ⟨mem_references_or_mem_shorthandNames hname, mem_declaredInFront_iff, mem_boundByOptions_iff hname⟩,
    ?_⟩
  constructor
  · intro hdisjoint name hname
    rw [← mem_declaredInFront_iff, ← mem_boundByOptions_iff hname, ← not_or, ← List.mem_append]
    exact fun hmem => hdisjoint hmem hname
  · intro hnone name hmem hname
    obtain ⟨hfront, hoption⟩ := hnone name hname
    rw [← mem_declaredInFront_iff] at hfront
    rw [← mem_boundByOptions_iff hname] at hoption
    exact (List.mem_append.1 hmem).elim hfront hoption

end

/-! ### A variable called like the query, and one called like the request -/

/-- A body with a variable. -/
def variableBody (name : String) : String := "const " ++ name ++ " = f();"

/-- A handler without parameters that has this body. -/
def variableSource (name : String) : String :=
  "export function GET(): T \x7b\n  const " ++ name ++ " = f();\n\x7d\n"

/-- A handler that is no redirect, takes no payload, and has the body and the request. -/
def replaysAs [Recovery] (request body : String) (_site : HandlerSite) (handler : Handler) : Bool :=
  handler.marker != .redirect && handler.usesBody == false && handler.request == request &&
    replayedBody handler [] == body

theorem exists_of_replaysAs [Recovery] {source request : String}
    (h : (Grammar.parse? source).any (anyHandler (replaysAs request body)) = true) :
    ∃ program site handler, Grammar.parse? source = some program ∧ site ∈ discoverHandlers program ∧
      describe program (.ofModule program) site = .ok handler ∧ handler.marker ≠ .redirect ∧
      handler.usesBody = false ∧ handler.request = request ∧ replayedBody handler [] = body := by
  obtain ⟨program, site, handler, hparse, hsite, hd, h⟩ := exists_of_anyHandler h
  simp only [replaysAs, Bool.and_eq_true, bne_iff_ne, beq_iff_eq] at h
  obtain ⟨⟨⟨hmarker, huses⟩, hrequest⟩, hbody⟩ := h
  exact ⟨program, site, handler, hparse, hsite, hd, hmarker, huses, hrequest, hbody⟩

attribute [local instance] Recovery.verbatim

set_option maxRecDepth 1000000 in
/-- The handler with a variable that has the name of the query. -/
theorem variableSource_query :
    (Grammar.parse? (variableSource "searchParams")).any
      (anyHandler (replaysAs "req" (variableBody "searchParams"))) = true ∧
    blockNames (variableBody "searchParams") = ["searchParams"] ∧
    declaresName (variableBody "searchParams") "searchParams" = true := by
  decide +kernel

theorem replaysAs_query : (Grammar.parse? (variableSource "searchParams")).any
    (anyHandler (replaysAs "req" (variableBody "searchParams"))) = true :=
  variableSource_query.1

theorem blockNames_query : blockNames (variableBody "searchParams") = ["searchParams"] :=
  variableSource_query.2.1

theorem declaresName_query : declaresName (variableBody "searchParams") "searchParams" = true :=
  variableSource_query.2.2

/-- The query of the member makes room for the variable. -/
theorem disjoint_query : ∃ program site handler,
    Grammar.parse? (variableSource "searchParams") = some program ∧
      describe program (.ofModule program) site = .ok handler ∧ handler.marker ≠ .redirect ∧
      "searchParams" ∈ blockNames (replayedBody handler []) ∧
      (declaredInFront handler [] ++ boundByOptions handler []).Disjoint
        (blockNames (replayedBody handler [])) := by
  obtain ⟨program, site, handler, hparse, -, hd, hmarker, huses, hrequest, hbody⟩ :=
    exists_of_replaysAs replaysAs_query
  refine ⟨program, site, handler, hparse, hd, hmarker, by simp [hbody, blockNames_query], ?_⟩
  refine (clashes_iff hd hmarker []).2.2.2.2 fun name hname => ?_
  rw [hbody, blockNames_query] at hname
  obtain rfl := List.mem_singleton.1 hname
  constructor
  · intro hagain
    cases hagain with
    | request hname => simp [hrequest] at hname
    | standIn hname => simp [hrequest] at hname
    | surroundings hname => simp [headersName, cookiesName] at hname
  · intro hhides
    cases hhides with
    | payload hpayload => simp [huses] at hpayload
    | query _ hvariable => simp [hbody, declaresName_query] at hvariable
    | renamedQuery hname => simp at hname

set_option maxRecDepth 1000000 in
/-- The handler with a variable that has the name of the request. -/
theorem variableSource_request :
    (Grammar.parse? (variableSource "req")).any
      (anyHandler (replaysAs "req" (variableBody "req"))) = true ∧
    blockNames (variableBody "req") = ["req"] ∧ "req" ∈ references (variableBody "req") := by
  decide +kernel

theorem replaysAs_request : (Grammar.parse? (variableSource "req")).any
    (anyHandler (replaysAs "req" (variableBody "req"))) = true :=
  variableSource_request.1

theorem blockNames_request : blockNames (variableBody "req") = ["req"] :=
  variableSource_request.2.1

theorem mem_references_request : "req" ∈ references (variableBody "req") :=
  variableSource_request.2.2

/-- A handler without parameters has its request under a name that its body may declare, too. -/
theorem request_declared_again : ∃ program site handler,
    Grammar.parse? (variableSource "req") = some program ∧ site ∈ discoverHandlers program ∧
      describe program (.ofModule program) site = .ok handler ∧ handler.marker ≠ .redirect ∧
      "req" ∈ declaredInFront handler [] ∧ "req" ∈ blockNames (replayedBody handler []) := by
  obtain ⟨program, site, handler, hparse, hsite, hd, hmarker, -, hrequest, hbody⟩ :=
    exists_of_replaysAs replaysAs_request
  refine ⟨program, site, handler, hparse, hsite, hd, hmarker, ?_, by simp [hbody, blockNames_request]⟩
  rw [mem_declaredInFront_iff, hbody]
  exact .request hrequest.symm mem_references_request

end RouteBinder.Emit.Server
