import Mathlib.Data.List.Nodup
import RouteBinder.Analysis.Module

/-!
# RouteBinder.Proofs.Analysis.HandledVerbs

**The verbs of a route file.** Only the first implementation of a verb becomes a handler, and only names
of verbs are taken for handlers. So the handlers of a file have different verbs, each of them one of
`verbs` (`distinctVerbs_analyze`).
-/

namespace RouteBinder

/-- The handlers implement different verbs, each of them one that route files can implement. -/
structure DistinctVerbs (handlers : List Handler) : Prop where
  nodup : (handlers.map (·.verb)).Nodup
  known : ∀ handler ∈ handlers, handler.verb ∈ verbs

theorem DistinctVerbs.nil : DistinctVerbs [] := ⟨List.nodup_nil, fun _ h => absurd h List.not_mem_nil⟩

theorem distinctVerbs_iff {handlers : List Handler} :
    DistinctVerbs handlers ↔
      (handlers.map (·.verb)).Nodup ∧ ∀ verb ∈ handlers.map (·.verb), verb ∈ verbs := by
  rw [List.forall_mem_map]
  exact ⟨fun h => ⟨h.nodup, h.known⟩, fun h => ⟨h.1, h.2⟩⟩

/-- What is added to handlers without the verbs that are there keeps the verbs different. -/
theorem nodup_verbs_append {handlers others : List Handler} (h : (handlers.map (·.verb)).Nodup)
    (ho : (others.map (·.verb)).Nodup) :
    ((handlers ++ others.filter fun other =>
      !(handlers.find? (·.verb == other.verb)).isSome).map (·.verb)).Nodup := by
  rw [List.map_append]
  refine h.append (ho.sublist (List.filter_sublist.map _)) ?_
  intro verb hverb hother
  obtain ⟨handler, hmem, rfl⟩ := List.mem_map.1 hverb
  obtain ⟨other, hother, hsame⟩ := List.mem_map.1 hother
  have hnew := (List.mem_filter.1 hother).2
  simp only [Bool.not_eq_true', Option.isSome_eq_false_iff, Option.isNone_iff_eq_none,
    List.find?_eq_none] at hnew
  exact hnew handler hmem (beq_iff_eq.2 hsame.symm)

theorem DistinctVerbs.append {handlers others : List Handler} (h : DistinctVerbs handlers)
    (ho : DistinctVerbs others) :
    DistinctVerbs (handlers ++
      others.filter fun other => !(handlers.find? (·.verb == other.verb)).isSome) := by
  constructor
  · exact nodup_verbs_append h.nodup ho.nodup
  · intro handler hmem
    rcases List.mem_append.1 hmem with hmem | hmem
    · exact h.known handler hmem
    · exact ho.known handler (List.mem_filter.1 hmem).1

namespace Analysis

open Source FileSystem Body

/-! ### Implementations -/

/-- The verbs of the sites are different, and known. -/
def DistinctSites (sites : List HandlerSite) : Prop :=
  (sites.map (·.verb)).Nodup ∧ ∀ verb ∈ sites.map (·.verb), verb ∈ verbs

theorem verbs_addImplementation (sites : List HandlerSite) (verb : String) (function : Node) :
    (addImplementation sites verb function).map (·.verb) =
      if verb ∈ sites.map (·.verb) then sites.map (·.verb) else sites.map (·.verb) ++ [verb] := by
  have hany : (sites.any (·.verb == verb)) = true ↔ verb ∈ sites.map (·.verb) := by
    simp only [List.any_eq_true, beq_iff_eq, List.mem_map]
  simp only [addImplementation, hany]
  split
  · rw [List.map_map]
    refine List.map_congr_left fun site _ => ?_
    dsimp only [Function.comp]
    split <;> rfl
  · rw [List.map_append]
    rfl

theorem DistinctSites.addImplementation {sites : List HandlerSite} (h : DistinctSites sites)
    {verb : String} (hverb : verb ∈ verbs) (function : Node) :
    DistinctSites (addImplementation sites verb function) := by
  rw [DistinctSites, verbs_addImplementation]
  split
  · exact h
  · rename_i hnew
    constructor
    · exact h.1.append (List.nodup_singleton verb) (by simpa using hnew)
    · intro other hother
      rcases List.mem_append.1 hother with hother | hother
      · exact h.2 other hother
      · rwa [List.mem_singleton.1 hother]

theorem distinctSites_implementations (declarations : List ExportedDeclaration) :
    DistinctSites (implementations declarations) := by
  refine List.foldlRecOn declarations _ ⟨List.nodup_nil, fun _ h => absurd h List.not_mem_nil⟩ ?_
  intro sites h declaration _
  cases declaration with
  | overload name node => exact h
  | implementation name function =>
      dsimp only
      split
      · rename_i hcounts
        rw [Bool.and_eq_true, List.contains_iff_mem] at hcounts
        exact h.addImplementation hcounts.1 function
      · exact h

theorem distinctSites_discoverHandlers (program : Node) :
    DistinctSites (discoverHandlers program) := by
  have h := distinctSites_implementations (program.namedChildren.flatMap exportedDeclarations)
  rw [DistinctSites, discoverHandlers, List.map_map]
  exact h

/-! ### Descriptions -/

/-- What a description takes over from the handler as it is written. -/
structure Described [Recovery] (program : Node) (site : HandlerSite) (handler : Handler) : Prop where
  verb : handler.verb = site.verb
  body : handler.body = retainedBody program (bodyText site.function)
  request : handler.request = (requestName? site.function).getD "req"
  payloadVariable : handler.payloadVariable =
    (Payload.ofFunction site.function (requestName? site.function)).holders.head?

theorem described_of_describe [Recovery] {program : Node} {module : Scope} {site : HandlerSite}
    {handler : Handler} (h : describe program module site = .ok handler) :
    Described program site handler := by
  rw [describe] at h
  cases hout : outputType (HandlerContext.ofFunction site.function module).scope site.function
      site.returnType with
  | error cause =>
      simp only [hout] at h
      cases h
  | ok output =>
      simp only [hout] at h
      cases h
      exact ⟨rfl, rfl, rfl, rfl⟩

/-- Descriptions keep the verbs, one by one. -/
theorem verbs_of_mapM_describe [Recovery] {program : Node} {module : Scope} {sites : List HandlerSite}
    {handlers : List Handler} (h : sites.mapM (describe program module) = .ok handlers) :
    handlers.map (·.verb) = sites.map (·.verb) := by
  induction sites generalizing handlers with
  | nil =>
      cases h
      rfl
  | cons site rest ih =>
      rw [List.mapM_cons] at h
      cases hs : describe program module site with
      | error cause =>
          rw [hs] at h
          cases h
      | ok handler =>
          rw [hs] at h
          cases hr : rest.mapM (describe program module) with
          | error cause =>
              rw [hr] at h
              cases h
          | ok others =>
              rw [hr] at h
              cases h
              rw [List.map_cons, List.map_cons, ih hr, (described_of_describe hs).verb]

/-- An analysis describes the handlers that are found in the program of the source. -/
theorem analyze_eq_ok [Recovery] {source : String} {origin : Option Path} {analysis : ModuleAnalysis} :
    analyze source origin = .ok analysis ↔ ∃ program handlers,
      Grammar.parse? source = some program ∧
        (discoverHandlers program).mapM (describe program (Scope.ofModule program)) =
          .ok handlers ∧
        analysis = { handlers, imports := importSpecs program origin } := by
  rw [analyze]
  constructor
  · intro h
    cases hp : Grammar.parse? source with
    | none =>
        rw [hp] at h
        cases h
    | some program =>
        rw [hp] at h
        dsimp only at h
        cases hm : (discoverHandlers program).mapM (describe program (Scope.ofModule program)) with
        | error cause =>
            rw [hm] at h
            cases h
        | ok handlers =>
            rw [hm] at h
            exact ⟨program, handlers, rfl, hm, (Except.ok.inj h).symm⟩
  · intro h
    obtain ⟨program, handlers, hp, hm, rfl⟩ := h
    simp only [hp, hm]

/-- The handlers of a route file have different verbs. -/
theorem distinctVerbs_analyze [Recovery] {source : String} {origin : Option Path}
    {analysis : ModuleAnalysis}
    (h : analyze source origin = .ok analysis) : DistinctVerbs analysis.handlers := by
  obtain ⟨program, handlers, -, hm, rfl⟩ := analyze_eq_ok.1 h
  rw [distinctVerbs_iff, verbs_of_mapM_describe hm]
  exact distinctSites_discoverHandlers program

end Analysis

end RouteBinder
