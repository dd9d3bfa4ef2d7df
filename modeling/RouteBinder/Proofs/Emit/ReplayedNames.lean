import Mathlib.Data.List.Forall2
import RouteBinder.Proofs.Analysis.HandledVerbs
import RouteBinder.Proofs.Emit.Members

/-!
# RouteBinder.Proofs.Emit.ReplayedNames

**The names of a handler's parameters in its member.** A replayed body may still refer to names that
the parameters of the handler bound. The member for the server binds the names of its options, of the
declarations in front of the body, of the page, and of the accessors around it (`Server.boundNames`; the
emitted text is made from these names, `Server.member_eq_wrapped`).

* The request is always bound: a body that still refers to it gets a stand-in.
* No other parameter is bound for its own sake. It is exactly when it happens to have a name that the
  member binds anyway (`Server.unboundNames_eq_nil_iff`).
* So a body that uses the route context as a whole refers to a name that nothing binds
  (`Server.unbound_params`).
-/

namespace RouteBinder.Emit.Server

open Source Analysis Body Route Text

variable {handler : Handler} {directories : List String} {body query name : String}
  {usesQuery : Bool}

/-! ### Names that a member binds -/

/-- The names that the parameters of a function bind. -/
def parameterNames (function : Node) : List String :=
  function.functionParameters.flatMap fun param =>
    ((param.parameterPattern?).map Node.declaredNames).getD []

/-- The name of the payload in a replayed body. -/
def payloadName (handler : Handler) : String := (present handler.payloadVariable).getD "body"

/-- An option that is bound to a name. -/
def optionPattern (key name : String) : String := if name == key then key else key ++ ": " ++ name

/-- The options of a member with the names that they are bound to. -/
def boundOptions (handler : Handler) (usesQuery : Bool) (query : String) : List (String × String) :=
  (if handler.usesBody then [("body", payloadName handler)] else []) ++
    if usesQuery then [("searchParams", query)] else []

/-- The names that are declared in front of a body. -/
def preambleNames [Recovery] (handler : Handler) (body : String) (usesQuery : Bool) : List String :=
  (if usesQuery then [handler.request] else []) ++
    [headersName, cookiesName].filter (references body).contains

/-- The patterns of the options are made from the names that they are bound to. -/
theorem options_eq : (options handler usesQuery query).map Prod.fst =
    (boundOptions handler usesQuery query).map fun (key, name) => optionPattern key name := by
  rw [options, boundOptions, List.map_append, List.map_append]
  congr 1
  · split
    · rw [payloadName]
      cases present handler.payloadVariable <;> rfl
    · rfl
  · split <;> rfl

/-- The line declares the name. -/
def Declares (line name : String) : Prop := ("const " ++ name).toList <+: line.toList

theorem declares_append (name rest : String) : Declares ("const " ++ name ++ rest) name := by
  rw [Declares, String.toList_append (s := "const " ++ name)]
  exact List.prefix_append _ _

/-- The lines in front of a body declare the names that they are made from. -/
theorem forall₂_preamble [Recovery] (handler : Handler) (body : String) (usesQuery : Bool)
    (query : String) :
    List.Forall₂ Declares (preamble handler body usesQuery query)
      (preambleNames handler body usesQuery) := by
  rw [preamble, preambleNames, List.append_assoc]
  refine List.rel_append ?_ ?_
  · split
    · refine .cons ?_ .nil
      delta syntheticRequest
      simp only [String.append_assoc]
      rw [← String.append_assoc]
      exact declares_append _ _
    · exact .nil
  · rw [show [headersName, cookiesName] = [headersName] ++ [cookiesName] from rfl,
      List.filter_append]
    refine List.rel_append ?_ ?_ <;> rw [List.filter_singleton]
    · cases (references body).contains headersName with
      | false => exact .nil
      | true => exact .cons (declares_append _ _) .nil
    · cases (references body).contains cookiesName with
      | false => exact .nil
      | true => exact .cons (declares_append _ _) .nil

/-! ### Members in parts -/

section

variable [Recovery]

/-- The body as it is replayed. -/
def replayedBody (handler : Handler) (directories : List String) : String :=
  match handler.marker with
  | .paginated => pagedBody handler directories
  | _ => applyAll (commonRules handler directories) handler.body

/-- Does a replayed body need a stand-in for the request? -/
def needsRequest (handler : Handler) (body : String) : Bool :=
  (references body).contains handler.request ||
    (handler.marker != .paginated && (references body).contains "searchParams")

/-- Does the member for a body take a query? -/
def takesQuery (handler : Handler) (body : String) : Bool :=
  handler.marker == .paginated || needsRequest handler body

/-- The names that the member for a handler binds around its body, those of the accessors that it
stands in included. -/
def boundNames (handler : Handler) (directories : List String) : List String :=
  let body := replayedBody handler directories
  (boundOptions handler (takesQuery handler body) (queryName body)).map Prod.snd ++
    (if handler.marker == .paginated then [pageName] else []) ++
    preambleNames handler body (needsRequest handler body) ++ Address.params directories

/-- The parameters of a member as text. -/
def parametersText (handler : Handler) (patterns : List String) (rest : String) : String :=
  (if patterns.isEmpty then "" else "\x7b " ++ String.intercalate ", " patterns ++ " \x7d: " ++ rest) ++
    if handler.marker == .paginated then ", " ++ pageName ++ ": number = 1" else ""

/-- The types of options as text. -/
def optionTypes (handler : Handler) (options : List (String × String)) : String :=
  "\x7b " ++ String.intercalate "; " (options.map Prod.snd) ++ " \x7d" ++
    if handler.usesBody then "" else " = \x7b\x7d"

omit [Recovery] in
theorem optionsParam_eq (options : List (String × String)) : optionsParam handler options =
    "\x7b " ++ String.intercalate ", " (options.map Prod.fst) ++ " \x7d: " ++
      optionTypes handler options := by
  rw [optionsParam, optionTypes, show " \x7d: \x7b " = " \x7d: " ++ "\x7b " from rfl]
  simp only [String.append_assoc]

theorem replayedBody_of_not_paginated (h : handler.marker ≠ .paginated) :
    replayedBody handler directories =
      applyAll (commonRules handler directories) handler.body := by
  rw [replayedBody]
  split
  · rename_i hpaginated
    exact absurd hpaginated h
  · rfl

theorem member_of_not_paginated (hmarker : handler.marker ≠ .redirect)
    (h : handler.marker ≠ .paginated) :
    member handler directories = generalMember handler directories := by
  rw [member]
  split
  · rename_i hredirect
    exact absurd hredirect hmarker
  · rename_i hpaginated
    exact absurd hpaginated h
  · rfl

/-- A member that is not a redirect consists of its options, the declarations in front of the body, and
the body as it is replayed. -/
theorem member_eq_wrapped (hmarker : handler.marker ≠ .redirect) :
    ∃ rest lines,
      member handler directories =
        wrapped
          (parametersText handler
            ((boundOptions handler (takesQuery handler (replayedBody handler directories))
              (queryName (replayedBody handler directories))).map fun (key, name) =>
                optionPattern key name) rest)
          (withPreamble lines (replayedBody handler directories)) ∧
      List.Forall₂ Declares lines
        (preambleNames handler (replayedBody handler directories)
          (needsRequest handler (replayedBody handler directories))) := by
  rw [← options_eq]
  refine ⟨optionTypes handler (options handler (takesQuery handler (replayedBody handler directories))
    (queryName (replayedBody handler directories))), _, ?_,
    forall₂_preamble handler _ _ (queryName (replayedBody handler directories))⟩
  rw [parametersText, ← optionsParam_eq, List.isEmpty_map]
  by_cases hpaginated : handler.marker = .paginated
  · have hbody : replayedBody handler directories = pagedBody handler directories := by
      rw [replayedBody, hpaginated]
    have htakes : takesQuery handler (pagedBody handler directories) = true := by
      rw [takesQuery, hpaginated]
      rfl
    have hneeds : needsRequest handler (pagedBody handler directories) =
        (references (pagedBody handler directories)).contains handler.request := by
      rw [needsRequest, hpaginated]
      exact Bool.or_false _
    have hne : ∀ query, (options handler true query).isEmpty = false := by
      intro query
      rw [options]
      cases handler.usesBody <;> rfl
    have hmember : member handler directories = paginatedMember handler directories := by
      rw [member, hpaginated]
    rw [hbody, htakes, hneeds, hne, hmember, paginatedMember, hpaginated,
      if_neg Bool.false_ne_true, if_pos (beq_self_eq_true _)]
    simp only [String.append_assoc]
  · have hmark : (handler.marker == .paginated) = false := beq_eq_false_iff_ne.2 hpaginated
    have hneeds : ∀ body, needsRequest handler body =
        ((references body).contains handler.request ||
          (references body).contains "searchParams") := by
      intro body
      rw [needsRequest, bne, hmark, Bool.not_false, Bool.true_and]
    rw [replayedBody_of_not_paginated hpaginated, member_of_not_paginated hmarker hpaginated,
      takesQuery, hmark, Bool.false_or, hneeds, if_neg Bool.false_ne_true, String.append_empty,
      generalMember]

/-! ### Names that are bound -/

theorem mem_preambleNames (href : name ∈ references body) :
    name ∈ preambleNames handler body (needsRequest handler body) ↔
      name = handler.request ∨ name = headersName ∨ name = cookiesName := by
  have hneeds : name = handler.request → needsRequest handler body = true := by
    rintro rfl
    rw [needsRequest, List.contains_iff_mem.2 href, Bool.true_or]
  rw [preambleNames, List.mem_append, List.mem_filter, List.contains_iff_mem, List.mem_pair]
  have hrequest : name ∈ (if needsRequest handler body then [handler.request] else []) ↔
      name = handler.request := by
    constructor
    · intro h
      split at h
      · exact List.mem_singleton.1 h
      · cases h
    · intro h
      rw [if_pos (hneeds h), h]
      exact List.mem_singleton_self _
  rw [hrequest, and_iff_left href]

/-- The member binds the name, whatever the parameters of its handler are called. -/
def BindsAnyway (handler : Handler) (directories : List String) (name : String) : Prop :=
  let body := replayedBody handler directories
  name ∈ Address.params directories ∨
    name ∈ [headersName, cookiesName, "searchParams"] ∨
    (handler.usesBody = true ∧ name = payloadName handler) ∨
    (handler.marker = .paginated ∧ name = pageName) ∨
    -- The query has this name in a body that has a variable of the usual name.
    (name = "__searchParams" ∧ declaresName body "searchParams" = true ∧
      takesQuery handler body = true)

omit [Recovery] in
theorem mem_boundOptions : name ∈ (boundOptions handler usesQuery query).map Prod.snd ↔
    (handler.usesBody = true ∧ name = payloadName handler) ∨ (usesQuery = true ∧ name = query) := by
  rw [boundOptions]
  cases handler.usesBody <;> cases usesQuery <;> simp

/-- Of the names that a body refers to and does not declare, the member binds the request, and those
that it binds anyway. -/
theorem mem_boundNames_iff (href : name ∈ references (replayedBody handler directories))
    (hdecl : declaresName (replayedBody handler directories) name = false) :
    name ∈ boundNames handler directories ↔
      name = handler.request ∨ BindsAnyway handler directories name := by
  rw [boundNames, BindsAnyway]
  rw [List.mem_append, List.mem_append, List.mem_append, mem_boundOptions, mem_preambleNames href]
  generalize hbody : replayedBody handler directories = body at *
  have hpage : name ∈ (if handler.marker == .paginated then [pageName] else []) ↔
      handler.marker = .paginated ∧ name = pageName := by
    by_cases h : handler.marker = .paginated <;> simp [h]
  -- A body that refers to the query takes one, under the usual name.
  have htakes : name = "searchParams" → takesQuery handler body = true := by
    rintro rfl
    rw [takesQuery, needsRequest, bne, List.contains_iff_mem.2 href]
    cases handler.marker == .paginated <;> simp
  have hquery : takesQuery handler body = true ∧ name = queryName body ↔
      name = "searchParams" ∨ (name = "__searchParams" ∧ declaresName body "searchParams" = true ∧
        takesQuery handler body = true) := by
    rw [queryName]
    cases hdeclares : declaresName body "searchParams" with
    | false =>
        rw [if_neg Bool.false_ne_true]
        exact ⟨fun h => Or.inl h.2, fun h => h.elim (fun h => ⟨htakes h, h⟩) fun h => by simp at h⟩
    | true =>
        rw [if_pos rfl]
        have hne : name ≠ "searchParams" := by
          rintro rfl
          rw [hdecl] at hdeclares
          cases hdeclares
        simp only [hne, false_or, true_and]
        exact And.comm
  rw [hpage, hquery]
  simp only [List.mem_cons, List.not_mem_nil, or_false]
  exact iff_of_eq (by ac_rfl)

/-- The names of the parameters that the replayed body refers to, and that neither the body nor the
member binds. -/
def unboundNames (function : Node) (handler : Handler) (directories : List String) : List String :=
  let body := replayedBody handler directories
  (parameterNames function).filter fun name =>
    (references body).contains name && !declaresName body name &&
      !(boundNames handler directories).contains name

theorem mem_unboundNames {function : Node} : name ∈ unboundNames function handler directories ↔
    name ∈ parameterNames function ∧ name ∈ references (replayedBody handler directories) ∧
      declaresName (replayedBody handler directories) name = false ∧
      name ∉ boundNames handler directories := by
  simp only [unboundNames, List.mem_filter, Bool.and_eq_true, List.contains_eq_mem,
    decide_eq_true_eq, Bool.not_eq_true', decide_eq_false_iff_not, and_assoc]

/-- A member is made of the names that it binds. The names of all parameters that the replayed body
still needs are among them exactly when each of them is the request, or bound anyway. -/
theorem unboundNames_eq_nil_iff {program : Node} {module : Scope} {site : HandlerSite}
    (h : describe program module site = .ok handler) (hmarker : handler.marker ≠ .redirect)
    (directories : List String) :
    (∃ rest lines,
      member handler directories =
        wrapped
          (parametersText handler
            ((boundOptions handler (takesQuery handler (replayedBody handler directories))
              (queryName (replayedBody handler directories))).map fun (key, name) =>
                optionPattern key name) rest)
          (withPreamble lines (replayedBody handler directories)) ∧
      List.Forall₂ Declares lines
        (preambleNames handler (replayedBody handler directories)
          (needsRequest handler (replayedBody handler directories)))) ∧
    (unboundNames site.function handler directories = [] ↔
      ∀ name ∈ parameterNames site.function,
        name ∈ references (replayedBody handler directories) →
        declaresName (replayedBody handler directories) name = false →
          name = (requestName? site.function).getD "req" ∨
            BindsAnyway handler directories name) := by
  refine ⟨member_eq_wrapped hmarker, ?_⟩
  rw [List.eq_nil_iff_forall_not_mem, ← (described_of_describe h).request]
  constructor
  · intro hnone name hparam href hdecl
    by_contra hbound
    rw [← mem_boundNames_iff href hdecl] at hbound
    exact hnone name (mem_unboundNames.2 ⟨hparam, href, hdecl, hbound⟩)
  · intro hall name hname
    obtain ⟨hparam, href, hdecl, hbound⟩ := mem_unboundNames.1 hname
    exact hbound ((mem_boundNames_iff href hdecl).2 (hall name hparam href hdecl))

/-! ### Route contexts that are used as a whole -/

/-- Does a handler of the module, as it is described, pass the check? -/
def anyHandler (check : HandlerSite → Handler → Bool) (program : Node) : Bool :=
  (discoverHandlers program).any fun site =>
    match describe program (.ofModule program) site with
    | .ok handler => check site handler
    | .error _ => false

theorem exists_of_anyHandler {source : String} {check : HandlerSite → Handler → Bool}
    (h : (Grammar.parse? source).any (anyHandler check) = true) :
    ∃ program site handler, Grammar.parse? source = some program ∧
      site ∈ discoverHandlers program ∧
      describe program (.ofModule program) site = .ok handler ∧ check site handler = true := by
  obtain ⟨program, hparse, h⟩ := (Option.any_eq_true _ _).1 h
  obtain ⟨site, hsite, h⟩ := List.any_eq_true.1 h
  cases hd : describe program (.ofModule program) site with
  | error cause =>
      rw [hd] at h
      cases h
  | ok handler =>
      rw [hd] at h
      exact ⟨program, site, handler, hparse, hsite, hd, h⟩

/-- A handler that is no redirect, and that leaves the given names unbound. -/
def leavesUnbound (names directories : List String) (site : HandlerSite) (handler : Handler) :
    Bool :=
  handler.marker != .redirect && unboundNames site.function handler directories == names

theorem exists_of_leavesUnbound {source : String} {names : List String}
    (h : (Grammar.parse? source).any (anyHandler (leavesUnbound names directories)) = true) :
    ∃ program site handler, Grammar.parse? source = some program ∧
      site ∈ discoverHandlers program ∧
      describe program (.ofModule program) site = .ok handler ∧ handler.marker ≠ .redirect ∧
      unboundNames site.function handler directories = names := by
  obtain ⟨program, site, handler, hparse, hsite, hd, h⟩ := exists_of_anyHandler h
  obtain ⟨hmarker, hnames⟩ := Bool.and_eq_true_iff.1 h
  exact ⟨program, site, handler, hparse, hsite, hd, bne_iff_ne.1 hmarker, beq_iff_eq.1 hnames⟩

end

/-- A handler that hands on all of its route parameters. -/
def wholeParamsSource : String :=
  "export function GET(r, \x7b params \x7d): T \x7b\n  return f(params);\n\x7d\n"

attribute [local instance] Recovery.verbatim

set_option maxRecDepth 1000000 in
theorem leavesUnbound_wholeParamsSource :
    (Grammar.parse? wholeParamsSource).any (anyHandler (leavesUnbound ["params"] ["[id]"])) = true := by
  decide +kernel

/-- At a route with a parameter, the body refers to `params`, and nothing binds it. -/
theorem unbound_params : ∃ program site handler,
    Grammar.parse? wholeParamsSource = some program ∧ site ∈ discoverHandlers program ∧
      describe program (.ofModule program) site = .ok handler ∧ handler.marker ≠ .redirect ∧
      "params" ∈ unboundNames site.function handler ["[id]"] := by
  obtain ⟨program, site, handler, hparse, hsite, h, hmarker, hnames⟩ :=
    exists_of_leavesUnbound leavesUnbound_wholeParamsSource
  exact ⟨program, site, handler, hparse, hsite, h, hmarker,
    hnames ▸ List.mem_singleton_self _⟩

/-- The parameter of the accessor is not called `params`, and neither is anything else in the member. -/
theorem not_bindsAnyway_params : ∃ program site handler,
    Grammar.parse? wholeParamsSource = some program ∧
      describe program (.ofModule program) site = .ok handler ∧ handler.marker ≠ .redirect ∧
      ∃ name ∈ parameterNames site.function,
        name ∈ references (replayedBody handler ["[id]"]) ∧
          name ≠ (requestName? site.function).getD "req" ∧ ¬ BindsAnyway handler ["[id]"] name := by
  obtain ⟨program, site, handler, hparse, -, h, hmarker, hnames⟩ :=
    exists_of_leavesUnbound leavesUnbound_wholeParamsSource
  refine ⟨program, site, handler, hparse, h, hmarker, ?_⟩
  by_contra hnone
  push Not at hnone
  have hnil := (unboundNames_eq_nil_iff h hmarker ["[id]"]).2.2 fun name hparam href hdecl =>
    or_iff_not_imp_left.2 (hnone name hparam href)
  rw [hnames] at hnil
  cases hnil

end RouteBinder.Emit.Server
