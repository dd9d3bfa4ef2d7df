import Mathlib.Data.List.Infix
import RouteBinder.Proofs.Body.SparedLiterals
import RouteBinder.Proofs.Emit.ReplayedNames

/-!
# RouteBinder.Proofs.Emit.ReplayedLiterals

**Literals on the way from a handler to the artifact.** A string or a template of a handler's body reaches
the text of the body, the retained body and the object for the server, as long as the rules on the way
spare it (`Server.standsIn_of_isLiteral`). A literal within one line gets there as it is.

No stage between the source and the artifact looks at literals when it moves margins. So the lines of a
template that goes over several of them get other blanks around them, at each stage
(`Server.not_infix_foldedTemplate`), and nothing else is changed.
-/

namespace RouteBinder.Emit

open Source Text Node Analysis Body Route

variable {part text : String} {literal : Node} {handler : Handler} {directories : List String}

/-! ### Texts around a part -/

theorem survives_intercalate {texts : List String} (htext : text ∈ texts)
    (h : Survives part text) : Survives part (String.intercalate "\n" texts) := by
  refine h.of_part ?_
  rw [String.toList_intercalate, show "\n".toList = ['\n'] from rfl, ← joinWith_eq]
  exact infix_unlines (List.mem_map_of_mem htext)

theorem survives_indent (level : Nat) (h : Survives part text) :
    Survives part (indent text level) := h.of_flush_eq (flush_indent text level)

/-- The object of a tree has what its members have. -/
theorem survives_accessorObject {emit : MemberEmitter} {tree node : RouteTree}
    (hentry : (directories, node) ∈ tree.entries) (hhandler : handler ∈ node.handlers)
    (h : Survives part (emit handler directories)) : Survives part (accessorObject tree emit) := by
  refine accessorObject_of_memberLine (Q := Survives part) (fun _ => survives_indent 1)
    (fun _ _ => survives_intercalate) hentry hhandler (survives_indent 1 ?_)
  exact h.of_part (infix_toList_append _ _ _)

/-- The literal stands in the text: as it is when it is within one line, and otherwise up to blanks next to
its line breaks. -/
structure StandsIn (literal : Node) (text : String) : Prop where
  survives : Survives literal.text text
  infix_of_line : '\n' ∉ literal.text.toList → literal.text.toList <:+: text.toList

theorem standsIn_iff (hliteral : literal.IsLiteral) :
    StandsIn literal text ↔ Survives literal.text text :=
  ⟨StandsIn.survives, fun h => ⟨h, h.infix_text hliteral⟩⟩

namespace Server

/-! ### Members -/

theorem keepsBraces_commonRules : ∀ rule ∈ commonRules handler directories, rule.KeepsBraces := by
  intro rule hrule
  rw [commonRules, List.mem_append, List.mem_cons] at hrule
  rcases hrule with hparams | rfl | hpayload
  · split at hparams
    · cases hparams
    · obtain ⟨params, -, rfl⟩ := List.mem_map.1 hparams
      exact keepsBraces_substituteRouteParams _ _
  · exact keepsBraces_replaceRequestAccessors _
  · split at hpayload
    · rw [List.mem_singleton.1 hpayload]
      exact keepsBraces_replacePayloadReads _ _
    · cases hpayload

section

variable [Recovery]

/-- The body after the rules for all kinds of handlers. -/
def adaptedBody (handler : Handler) (directories : List String) : String :=
  applyAll (commonRules handler directories) handler.body

/-- A body with the page taken from the parameter of the member. -/
def boundPage (handler : Handler) (body : String) : String :=
  let page := (handler.pagination.getD {}).page
  if declaresName body page then apply (replacePageVariable page pageName) body
  else "const " ++ page ++ " = " ++ pageName ++ ";\n" ++ body

theorem pagedBody_eq : pagedBody handler directories =
    applyUntilStable (dropUnusedRequestReads handler.request) roundsUntilStable
      (boundPage handler (adaptedBody handler directories)) := rfl

/-- The rules that adapt a retained body to its member spare the part. -/
structure SparedInReplay (part : String) (handler : Handler) (directories : List String) :
    Prop where
  common : SparedBy part (commonRules handler directories) handler.body
  page : handler.marker = .paginated →
    SparesIn part (replacePageVariable (handler.pagination.getD {}).page pageName)
      (adaptedBody handler directories)
  reads : handler.marker = .paginated →
    SparedBy part (List.replicate roundsUntilStable (dropUnusedRequestReads handler.request))
      (boundPage handler (adaptedBody handler directories))

theorem survives_replayedBody (h : SparedInReplay part handler directories)
    (hbody : Survives part handler.body) : Survives part (replayedBody handler directories) := by
  have hadapted : Survives part (adaptedBody handler directories) :=
    h.common.survives_applyAll keepsBraces_commonRules hbody
  by_cases hpaginated : handler.marker = .paginated
  · have hbound : Survives part (boundPage handler (adaptedBody handler directories)) := by
      rw [boundPage]
      split
      · exact (h.page hpaginated).survives_apply (keepsBraces_replacePageVariable _ _)
      · refine hadapted.of_part ?_
        rw [String.toList_append (t := adaptedBody handler directories)]
        exact (List.suffix_append _ _).isInfix
    rw [replayedBody, hpaginated]
    exact (h.reads hpaginated).survives_applyUntilStable
      (keepsBraces_dropUnusedRequestReads _) _ hbound
  · rw [replayedBody_of_not_paginated hpaginated]
    exact hadapted

/-- A member that replays the body has what the replayed body has. -/
theorem survives_member (hmarker : handler.marker ≠ .redirect)
    (h : Survives part (replayedBody handler directories)) :
    Survives part (member handler directories) := by
  obtain ⟨rest, lines, hmember, -⟩ := @member_eq_wrapped handler directories _ hmarker
  have hpreamble : Survives part (withPreamble lines (replayedBody handler directories)) :=
    survives_intercalate (List.mem_append_right _ (List.mem_singleton_self _)) h
  rw [hmember]
  exact (survives_indent 1 hpreamble).of_part (infix_toList_append _ _ _)

/-! ### From the source -/

variable {program block : Node} {module : Scope} {site : HandlerSite}

omit [Recovery] in
theorem survives_bodyText {function : Node} (hblock : function.field? .body = some block)
    (hbraces : block.InBraces) (hliteral : literal.IsLiteral) (hinside : literal.Inside block) :
    Survives literal.text (bodyText function) := by
  rw [bodyText, hblock]
  dsimp only
  rw [if_pos (beq_iff_eq.2 hbraces.kind_eq)]
  refine Survives.of_flush_eq ?_ (flush_blockContent _)
  exact infix_flush (hliteral.infix_inside (braced_text hbraces) hinside.atOrInside.infix_text)

theorem survives_retainedBody (hspared : SparedBy part extractionRules text)
    (h : Survives part text) : Survives part (retainedBody program text) := by
  have hbody : Survives part (if text.isEmpty then "" else applyAll extractionRules text) := by
    split
    · rename_i hempty
      exact String.isEmpty_iff.1 hempty ▸ h
    · exact hspared.survives_applyAll keepsBraces_extractionRules h
  rw [retainedBody]
  generalize (if text.isEmpty then "" else applyAll extractionRules text) = body at hbody
  rw [prependDeclarations]
  split
  · exact hbody
  · exact survives_intercalate (List.mem_append_right _ (List.mem_singleton_self _)) hbody

/-- A literal of a body stands in the text of the body, and wherever the rules spare it, in the retained
body and in the object for the server. -/
theorem standsIn_of_isLiteral (h : describe program module site = .ok handler)
    (hmarker : handler.marker ≠ .redirect) (hblock : site.function.field? .body = some block)
    (hbraces : block.InBraces) (hliteral : literal.IsLiteral) (hinside : literal.Inside block) :
    StandsIn literal (bodyText site.function) ∧
      (SparedBy literal.text extractionRules (bodyText site.function) →
        StandsIn literal handler.body ∧
          ∀ (tree node : RouteTree) (directories : List String),
            (directories, node) ∈ tree.entries → handler ∈ node.handlers →
              SparedInReplay literal.text handler directories →
                StandsIn literal (accessorObject tree member)) := by
  have htext := survives_bodyText hblock hbraces hliteral hinside
  rw [standsIn_iff hliteral, standsIn_iff hliteral]
  refine ⟨htext, fun hextraction => ?_⟩
  have hbody : Survives literal.text handler.body :=
    (described_of_describe h).body ▸ survives_retainedBody hextraction htext
  refine ⟨hbody, fun tree node directories hentry hhandler hreplay => ?_⟩
  rw [standsIn_iff hliteral]
  exact survives_accessorObject hentry hhandler
    (survives_member hmarker (survives_replayedBody hreplay hbody))

/-! ### Templates over several lines -/

/-- The rules leave the body as it is, and it has a literal that is the part, up to blanks. -/
def leftAlone (part : String) (rules : List Rule) (body : String) : Bool :=
  let fragment := Fragment.parse body
  tidy (inside fragment.block.text) == body &&
    (rules.all fun rule => rule fragment == fragment.block.text) &&
    fragment.block.ownNodes.any fun literal =>
      decide literal.IsLiteral && flush literal.text.toList == flush part.toList

/-- A statement of the body responds with a literal that is the part, up to blanks. -/
def respondsWith (part body : String) : Bool :=
  let block := (Fragment.parse body).block
  block.callParts?.isNone && block.children.any fun statement =>
    statement.callParts?.isNone && statement.children.any fun response =>
      response.callParts?.any fun (callee, args) =>
        decide (IsResponse response callee) && args.head?.any fun literal =>
          decide literal.IsLiteral && flush literal.text.toList == flush part.toList &&
            literal.preorder.all fun inner => inner.callParts?.isNone

/-- A literal in a response is spared where responses are taken off, and left alone by the other rules that
make the retained body. -/
def extracted (part body : String) : Bool :=
  let plain := apply unwrapSerialize body
  leftAlone part [unwrapSerialize] body && respondsWith part plain &&
    leftAlone part [stripReturnComma, stripMarker] (apply unwrapResponse plain)

omit [Recovery] in
/-- A literal in a block is not the block. -/
theorem inside_of_mem_ownNodes (hbraces : block.InBraces) (hliteral : literal.IsLiteral)
    (h : literal ∈ block.ownNodes) : literal.Inside block := by
  rcases Relation.reflTransGen_iff_eq_or_transGen.1 (atOrInside_of_mem_ownNodes h) with rfl | h
  · have hkind := hliteral.kind_mem
    rw [hbraces.kind_eq] at hkind
    exact absurd hkind (by decide)
  · exact h

theorem sparedBy_of_leftAlone {rules : List Rule} {body : String}
    (h : leftAlone part rules body = true) : SparedBy part rules body := by
  simp only [leftAlone, Bool.and_eq_true, beq_iff_eq, List.all_eq_true] at h
  obtain ⟨⟨htidy, hrules⟩, h⟩ := h
  obtain ⟨literal, hmem, h⟩ := List.any_eq_true.1 h
  simp only [Bool.and_eq_true, decide_eq_true_eq, beq_iff_eq] at h
  exact .of_unchanged h.1 h.2 (inside_of_mem_ownNodes (Fragment.inBraces_parse body) h.1 hmem) htidy hrules

theorem sparesIn_of_respondsWith {body : String} (h : respondsWith part body = true) :
    SparesIn part unwrapResponse body := by
  obtain ⟨hblock, h⟩ := Bool.and_eq_true_iff.1 h
  obtain ⟨statement, hstatement, h⟩ := List.any_eq_true.1 h
  obtain ⟨hnone, h⟩ := Bool.and_eq_true_iff.1 h
  obtain ⟨response, hresponse, h⟩ := List.any_eq_true.1 h
  obtain ⟨⟨callee, args⟩, hparts, h⟩ := (Option.any_eq_true _ _).1 h
  obtain ⟨hcallee, h⟩ := Bool.and_eq_true_iff.1 h
  obtain ⟨literal, hhead, h⟩ := (Option.any_eq_true _ _).1 h
  obtain ⟨rest, rfl⟩ := List.head?_eq_some_iff.1 hhead
  obtain ⟨h, hinner⟩ := Bool.and_eq_true_iff.1 h
  obtain ⟨hliteral, hpart⟩ := Bool.and_eq_true_iff.1 h
  have hinner : ∀ inner ∈ literal.preorder, inner.callParts? = none := fun inner hmem =>
    Option.isNone_iff_eq_none.1 (List.all_eq_true.1 hinner inner hmem)
  exact ⟨literal, of_decide_eq_true hliteral, beq_iff_eq.1 hpart,
    .of_responds (Option.isNone_iff_eq_none.1 hblock) hstatement (Option.isNone_iff_eq_none.1 hnone)
      hresponse ⟨callee, hparts, of_decide_eq_true hcallee⟩ hinner⟩

theorem sparedBy_of_extracted {body : String} (h : extracted part body = true) :
    SparedBy part extractionRules body := by
  simp only [extracted, Bool.and_eq_true] at h
  obtain ⟨⟨hserialize, hresponse⟩, hstrips⟩ := h
  exact ⟨(sparedBy_of_leftAlone hserialize).1, sparesIn_of_respondsWith hresponse,
    sparedBy_of_leftAlone hstrips⟩

/-- A tree with one handler. -/
def lone (handler : Handler) : RouteTree := .node { segment := "app", handlers := [handler] } []

/-- A handler that is no redirect, with a literal that all rules spare. -/
structure Keeps (program : Node) (site : HandlerSite) (handler : Handler) (block literal : Node) :
    Prop where
  describes : describe program (.ofModule program) site = .ok handler
  marker_ne : handler.marker ≠ .redirect
  field_eq : site.function.field? .body = some block
  inBraces : block.InBraces
  isLiteral : literal.IsLiteral
  inside : literal.Inside block
  extraction : SparedBy literal.text extractionRules (bodyText site.function)
  replay : SparedInReplay literal.text handler []

/-- The texts that the body of a handler becomes. -/
def stages (site : HandlerSite) (handler : Handler) : List String :=
  [bodyText site.function, handler.body, accessorObject (lone handler) member]

/-- Does the part stand in the text as it is? -/
def standsIn (part text : String) : Bool := text.toList.tails.any part.toList.isPrefixOf

omit [Recovery] in
theorem standsIn_eq_true_iff : standsIn part text = true ↔ part.toList <:+: text.toList := by
  rw [standsIn, List.any_eq_true, List.infix_iff_prefix_suffix]
  simp only [List.mem_tails, List.isPrefixOf_iff_prefix, and_comm]

/-- A plain handler whose body is rewritten, with a literal in it that all rules spare and whose text is in
none of the texts that the body becomes. -/
def folds (site : HandlerSite) (handler : Handler) : Bool :=
  handler.marker == .plain && handler.body != bodyText site.function &&
    (site.function.field? .body).any fun block =>
      decide block.InBraces && block.ownNodes.any fun literal =>
        decide literal.IsLiteral && extracted literal.text (bodyText site.function) &&
          leftAlone literal.text (commonRules handler []) handler.body &&
            (stages site handler).all fun text => !standsIn literal.text text

theorem exists_of_folds {source : String}
    (h : (Grammar.parse? source).any (anyHandler folds) = true) :
    ∃ program site handler block literal, Grammar.parse? source = some program ∧
      site ∈ discoverHandlers program ∧ Keeps program site handler block literal ∧
      handler.body ≠ bodyText site.function ∧
      ∀ text ∈ stages site handler, ¬ literal.text.toList <:+: text.toList := by
  obtain ⟨program, site, handler, hparse, hsite, hd, h⟩ := exists_of_anyHandler h
  obtain ⟨hmarker, h⟩ := Bool.and_eq_true_iff.1 h
  obtain ⟨hmarker, hrewritten⟩ := Bool.and_eq_true_iff.1 hmarker
  obtain ⟨block, hblock, h⟩ := (Option.any_eq_true _ _).1 h
  obtain ⟨hbraces, h⟩ := Bool.and_eq_true_iff.1 h
  obtain ⟨literal, hmem, h⟩ := List.any_eq_true.1 h
  simp only [Bool.and_eq_true, decide_eq_true_eq, List.all_eq_true, Bool.not_eq_true',
    ← Bool.not_eq_true, standsIn_eq_true_iff] at hbraces h
  obtain ⟨⟨⟨hliteral, hextraction⟩, hcommon⟩, hnone⟩ := h
  have hplain := beq_iff_eq.1 hmarker
  refine ⟨program, site, handler, block, literal, hparse, hsite, ?_, bne_iff_ne.1 hrewritten, hnone⟩
  exact
    { describes := hd
      marker_ne := by rw [hplain]; decide
      field_eq := hblock
      inBraces := hbraces
      isLiteral := hliteral
      inside := inside_of_mem_ownNodes hbraces hliteral hmem
      extraction := sparedBy_of_extracted hextraction
      replay :=
        { common := sparedBy_of_leftAlone hcommon
          page := fun h => by rw [hplain] at h; cases h
          reads := fun h => by rw [hplain] at h; cases h } }

end

/-- A handler that responds with a template that has an indented line. -/
def foldedSource : String :=
  "export function GET(): T \x7b\n  return Response.json(`a\n    b`);\n\x7d\n"

attribute [local instance] Recovery.verbatim

set_option maxRecDepth 1000000 in
theorem folds_foldedSource : (Grammar.parse? foldedSource).any (anyHandler folds) = true := by
  decide +kernel

/-- The margin of the second line belongs to the template, and is another one at every stage. -/
theorem not_infix_foldedTemplate : ∃ program site handler block literal,
    Grammar.parse? foldedSource = some program ∧ site ∈ discoverHandlers program ∧
      Keeps program site handler block literal ∧ handler.body ≠ bodyText site.function ∧
      ∀ text ∈ stages site handler, ¬ literal.text.toList <:+: text.toList :=
  exists_of_folds folds_foldedSource

/-- The template is still there after the response around it is taken off, with other blanks in front of
its second line. -/
theorem standsIn_foldedTemplate : ∃ program site handler block literal,
    Grammar.parse? foldedSource = some program ∧ Keeps program site handler block literal ∧
      handler.body ≠ bodyText site.function ∧ ∀ text ∈ stages site handler, StandsIn literal text := by
  obtain ⟨program, site, handler, block, literal, hparse, -, h, hrewritten, -⟩ :=
    exists_of_folds folds_foldedSource
  obtain ⟨htext, hbody⟩ := standsIn_of_isLiteral h.describes h.marker_ne h.field_eq h.inBraces
    h.isLiteral h.inside
  obtain ⟨hbody, hobject⟩ := hbody h.extraction
  have hentry : ([], lone handler) ∈ (lone handler).entries := List.mem_cons_self
  refine ⟨program, site, handler, block, literal, hparse, h, hrewritten, ?_⟩
  simp only [stages, List.forall_mem_cons, List.not_mem_nil, false_implies, implies_true, and_true]
  exact ⟨htext, hbody, hobject _ _ _ hentry (List.mem_singleton_self _) h.replay⟩

end Server

end RouteBinder.Emit
