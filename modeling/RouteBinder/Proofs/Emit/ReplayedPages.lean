import RouteBinder.Proofs.Body.DroppedReads
import RouteBinder.Proofs.Emit.ReplayedLiterals
import RouteBinder.Proofs.Source.Declarations

/-!
# RouteBinder.Proofs.Emit.ReplayedPages

**The page of a paginated member.** The member for a paginated handler is given its page, so the variable
of the page is to take its value from the parameter `pageParam`. The rule that sees to it looks at the
statements of the body itself, and only at those that declare nothing else, while the variable is looked
for in all blocks. So a member reads its page from the parameter exactly when each declaration of the
variable has such a statement of its own (`Server.page_taken_iff`); in a nested block, it is read from the
query as before (`Server.page_not_taken`).

Afterwards, declarations that read the request are dropped round by round. What is dropped in a round is
used by nothing that stays (`allDropped_unusedReads`), and it is never the declaration of the page.
-/

namespace RouteBinder.Body

open Source Node Text

variable {page : String} {statement : Node} {statements : List Node} {fragment : Fragment}

/-! ### Bodies that take their page -/

/-- The statement with the page taken from `pageParam`, if it declares the page alone. -/
def pagedStatement (page : String) (statement : Node) : Node :=
  if statement.declaresAlone page then constant statement.place page pageName else statement

/-- The block with the page taken from `pageParam` in the statements that declare it alone. -/
def pagedBlock (page : String) : Node → Node
  | .leaf place kind text => .leaf place kind text
  | .branch place kind statements => .branch place kind (statements.map (pagedStatement page))

theorem children_pagedBlock (page : String) (block : Node) :
    (pagedBlock page block).children = block.children.map (pagedStatement page) := by
  cases block <;> rfl

theorem gap_pagedStatement (page : String) (statement : Node) :
    (pagedStatement page statement).gap = statement.gap := by
  rw [pagedStatement]
  split <;> rfl

/-- The rule writes down the block in which the page is taken from `pageParam`. -/
theorem replacePageVariable_eq (page : String) (fragment : Fragment) :
    replacePageVariable page pageName fragment = (pagedBlock page fragment.block).text := by
  obtain ⟨block⟩ := fragment
  rw [replacePageVariable, Rule.ofStatements]
  cases block with
  | leaf => exact textWith_leaf
  | branch place kind statements =>
      rw [pagedBlock, text_branch, List.map_map, textWith_branch]
      congr 1
      refine List.ext_getElem (by simp) fun i hi hi' => ?_
      rw [List.getElem_mapIdx, List.getElem_map, Function.comp_apply, gap_pagedStatement,
        Prod.mk.injEq]
      refine ⟨rfl, ?_⟩
      have hi : i < statements.length := by simpa using hi
      show ((statements[i]?).bind _).getD _ = _
      rw [List.getElem?_eq_getElem hi, pagedStatement, declaresAlone]
      dsimp only [Option.bind_some]
      split
      · rw [text_constant]
        rfl
      · rfl

/-- The variable is declared where it was. -/
theorem isEmpty_binders_pagedStatement (page : String) (statement : Node) :
    (binders page [pagedStatement page statement]).isEmpty =
      (binders page [statement]).isEmpty := by
  rw [pagedStatement]
  split
  · rename_i halone
    have hne := binders_ne_nil_of_declaresAlone halone
    rw [← List.isEmpty_eq_false_iff] at hne
    rw [binders_constant, hne]
    rfl
  · rfl

theorem takesName_pagedStatement_iff (page : String) (statement : Node) :
    (∀ declarator ∈ binders page [pagedStatement page statement],
        declarator.takesName pageName = true) ↔
      statement.declaresAlone page = true ∨
        ∀ declarator ∈ binders page [statement], declarator.takesName pageName = true := by
  rw [pagedStatement]
  split
  · rename_i halone
    rw [binders_constant, List.forall_mem_singleton]
    exact iff_of_true takesName_initialized (Or.inl halone)
  · rename_i halone
    exact ⟨Or.inr, fun h => h.resolve_left halone⟩

theorem takesName_pagedBlock_iff (page : String) (block : Node) :
    (∀ declarator ∈ binders page (pagedBlock page block).children,
        declarator.takesName pageName = true) ↔
      ∀ statement ∈ block.children, statement.declaresAlone page = true ∨
        ∀ declarator ∈ binders page [statement], declarator.takesName pageName = true := by
  simp only [← takesName_pagedStatement_iff]
  rw [children_pagedBlock]
  constructor
  · intro h statement hstatement declarator hdeclarator
    exact h declarator (mem_binders.2 ⟨_, List.mem_map_of_mem hstatement, hdeclarator⟩)
  · intro h declarator hdeclarator
    obtain ⟨paged, hpaged, hdeclarator⟩ := mem_binders.1 hdeclarator
    obtain ⟨statement, hstatement, rfl⟩ := List.mem_map.1 hpaged
    exact h statement hstatement declarator hdeclarator

/-- The page stays declared when the request is something else. -/
theorem AllDropped.not_mem_of_constant {request : String} {places : List Nat} {block : Node}
    {i : Nat} {place : Place} (h : AllDropped request (placedStatements block) places)
    (hrequest : request ∉ [page, pageName])
    (hconstant : block.children[i]? = some (constant place page pageName)) : i ∉ places := by
  intro hi
  obtain ⟨statement, hdropped⟩ := h i hi
  obtain ⟨hchild, -⟩ := mem_placedStatements.1 hdropped.placed
  rw [hconstant] at hchild
  refine hrequest ?_
  rw [← references_constant place, Option.some.inj hchild]
  exact hdropped.reads

end RouteBinder.Body

namespace RouteBinder.Emit.Server

open Source Node Analysis Body Text

variable {handler : Handler} {directories : List String} {fragment : Fragment}

/-- The variable that a handler has its page in. -/
def pageVariable (handler : Handler) : String := (handler.pagination.getD {}).page

theorem boundPage_eq [Recovery]
    (hparse : Fragment.parse? (adaptedBody handler directories) = some fragment)
    (hdeclared : binders (pageVariable handler) fragment.block.children ≠ []) :
    boundPage handler (adaptedBody handler directories) =
      tidy (inside (pagedBlock (pageVariable handler) fragment.block).text) := by
  have hdeclares : declaresName (adaptedBody handler directories) (pageVariable handler) = true := by
    rw [declaresName, Fragment.parse_of_parse? hparse]
    exact declaresVariable_of_binders_ne_nil hdeclared
  rw [boundPage]
  show (if declaresName _ (pageVariable handler) then _ else _) = _
  rw [if_pos hdeclares, apply, Fragment.parse_of_parse? hparse]
  exact congrArg (fun text => tidy (inside text)) (replacePageVariable_eq _ _)

/-- No round drops the declaration of the page. -/
def RoundsKeepPage (request page : String) : Prop :=
  ∀ block places, AllDropped request (placedStatements block) places →
    ∀ i place, block.children[i]? = some (constant place page pageName) → i ∉ places

/-- The member of a paginated handler has a body in which the page is declared where it was, in the same
statements. It is taken from the parameter of the member exactly when each statement that declares it
declares nothing else and is no block: then nothing else initialises it. -/
theorem page_taken_iff [Recovery] (hmarker : handler.marker = .paginated)
    (hparse : Fragment.parse? (adaptedBody handler directories) = some fragment)
    (hdeclared : binders (pageVariable handler) fragment.block.children ≠ []) :
    (∃ params lines, member handler directories =
        wrapped params (withPreamble lines (pagedBody handler directories))) ∧
      Relation.ReflTransGen (DropsReads handler.request)
        (tidy (inside (pagedBlock (pageVariable handler) fragment.block).text))
        (pagedBody handler directories) ∧
      (handler.request ∉ [pageVariable handler, pageName] →
        RoundsKeepPage handler.request (pageVariable handler)) ∧
      ((pagedBlock (pageVariable handler) fragment.block).children.map fun statement =>
          (binders (pageVariable handler) [statement]).isEmpty) =
        (fragment.block.children.map fun statement =>
          (binders (pageVariable handler) [statement]).isEmpty) ∧
      ((∀ declarator ∈
            binders (pageVariable handler) (pagedBlock (pageVariable handler) fragment.block).children,
          declarator.takesName pageName = true) ↔
        ∀ statement ∈ fragment.block.children,
          statement.declaresAlone (pageVariable handler) = true ∨
            ∀ declarator ∈ binders (pageVariable handler) [statement],
              declarator.takesName pageName = true) := by
  refine ⟨⟨_, _, by rw [member, hmarker]; rfl⟩, ?_, ?_, ?_, takesName_pagedBlock_iff _ _⟩
  · rw [pagedBody_eq, boundPage_eq hparse hdeclared]
    exact reflTransGen_applyUntilStable _
  · exact fun hrequest block places hdropped i place hconstant =>
      hdropped.not_mem_of_constant hrequest hconstant
  · rw [children_pagedBlock, List.map_map]
    exact List.map_congr_left fun statement _ => isEmpty_binders_pagedStatement _ _

/-! ### Pages in blocks and pages in statements -/

/-- A body that no rule changes is replayed as it is. -/
theorem pagedBody_eq_body [Recovery] (hdeclares : declaresName handler.body (pageVariable handler) = true)
    (h : ∀ rule ∈ commonRules handler directories ++
        [replacePageVariable (pageVariable handler) pageName, dropUnusedRequestReads handler.request],
      apply rule handler.body = handler.body) :
    pagedBody handler directories = handler.body := by
  rw [List.forall_mem_append, List.forall_mem_cons, List.forall_mem_singleton] at h
  obtain ⟨hcommon, hpage, hreads⟩ := h
  have hbound : boundPage handler handler.body = handler.body := by
    rw [boundPage]
    show (if declaresName _ (pageVariable handler) then _ else _) = _
    rw [if_pos hdeclares]
    exact hpage
  rw [pagedBody_eq, adaptedBody, applyAll_eq_self hcommon, hbound, roundsUntilStable,
    applyUntilStable, hreads]
  exact if_pos (beq_self_eq_true _)

/-- No rule changes the body, and it declares the page, with another value than `pageParam`. -/
def missesPage (handler : Handler) : Bool :=
  (Fragment.parse? handler.body).any fun fragment =>
    ((commonRules handler [] ++ [replacePageVariable (pageVariable handler) pageName,
        dropUnusedRequestReads handler.request]).all fun rule =>
      tidy (inside (rule fragment)) == handler.body) &&
    (binders (pageVariable handler) fragment.block.children).any fun declarator =>
      !declarator.takesName pageName

theorem exists_of_missesPage [Recovery] (h : missesPage handler = true) :
    ∃ fragment declarator, Fragment.parse? (pagedBody handler []) = some fragment ∧
      declarator ∈ binders (pageVariable handler) fragment.block.children ∧
      declarator.takesName pageName = false := by
  simp only [missesPage, Option.any_eq_true, Bool.and_eq_true, List.all_eq_true, beq_iff_eq,
    List.any_eq_true, Bool.not_eq_true'] at h
  obtain ⟨fragment, hparse, hrules, declarator, hmem, htakes⟩ := h
  have hdeclares : declaresName handler.body (pageVariable handler) = true := by
    rw [declaresName, Fragment.parse_of_parse? hparse]
    exact declaresVariable_of_binders_ne_nil (List.ne_nil_of_mem hmem)
  refine ⟨fragment, declarator, ?_, hmem, htakes⟩
  have happly : ∀ rule ∈ commonRules handler [] ++ [replacePageVariable (pageVariable handler) pageName,
      dropUnusedRequestReads handler.request], apply rule handler.body = handler.body := fun rule hrule => by
    rw [apply, Fragment.parse_of_parse? hparse]
    exact hrules rule hrule
  rwa [pagedBody_eq_body hdeclares happly]

/-- A handler that reads its page in a block. -/
def nestedPageSource : String :=
  "export function GET(r): T \x7b\n  'use infinite';\n  \x7b\n    const p = r.get('p');\n" ++
    "    return p;\n  \x7d\n\x7d\n"

/-- What becomes of this handler. -/
def nestedPage : Handler :=
  { verb := "GET"
    input := .void
    output := .named "T"
    body := "\x7b\n  const p = r.get('p');\n  return p;\n\x7d"
    request := "r"
    marker := .paginated
    pagination := some { page := "p", queryKey := "p" }
    declaredReturnType := some "T" }

attribute [local instance] Recovery.verbatim

set_option maxRecDepth 1000000 in
theorem describes_nestedPage : (Grammar.parse? nestedPageSource).any (anyHandler fun site handler =>
    handler == nestedPage && (site.function.field? .body).any fun block =>
      !(binders "p" block.children).isEmpty) = true := by
  decide +kernel

set_option maxRecDepth 1000000 in
theorem missesPage_nestedPage : missesPage nestedPage = true := by
  decide +kernel

/-- The handler declares its page in one of its own blocks, and the body of the member still takes it from
the query. -/
theorem page_not_taken : ∃ program site handler block fragment declarator,
    Grammar.parse? nestedPageSource = some program ∧ site ∈ discoverHandlers program ∧
      describe program (.ofModule program) site = .ok handler ∧ handler.marker = .paginated ∧
      site.function.field? .body = some block ∧
      binders (pageVariable handler) block.children ≠ [] ∧
      Fragment.parse? (pagedBody handler []) = some fragment ∧
      declarator ∈ binders (pageVariable handler) fragment.block.children ∧
      declarator.takesName pageName = false := by
  obtain ⟨program, site, handler, hparse, hsite, hd, h⟩ := exists_of_anyHandler describes_nestedPage
  simp only [Bool.and_eq_true, beq_iff_eq, Option.any_eq_true, Bool.not_eq_true',
    List.isEmpty_eq_false_iff] at h
  obtain ⟨rfl, block, hblock, hdeclared⟩ := h
  obtain ⟨fragment, declarator, hfragment, hmem, htakes⟩ :=
    exists_of_missesPage missesPage_nestedPage
  exact ⟨program, site, nestedPage, block, fragment, declarator, hparse, hsite, hd, rfl, hblock,
    hdeclared, hfragment, hmem, htakes⟩

/-- A handler that reads its page in a statement of its own. -/
def statedPage : Handler :=
  { nestedPage with body := "const p = r.get('p');\nreturn p;" }

set_option maxRecDepth 1000000 in
theorem declaresAlone_statedPage :
    (Fragment.parse? (adaptedBody statedPage [])).any (fun fragment =>
      !(binders "p" fragment.block.children).isEmpty &&
        fragment.block.children.all fun statement =>
          statement.declaresAlone "p" || (binders "p" [statement]).isEmpty) = true := by
  decide +kernel

/-- The page of this handler is taken from the parameter. -/
theorem page_taken_statedPage : statedPage.marker = .paginated ∧ ∃ fragment,
    Fragment.parse? (adaptedBody statedPage []) = some fragment ∧
      binders (pageVariable statedPage) fragment.block.children ≠ [] ∧
      ∀ declarator ∈ binders (pageVariable statedPage)
          (pagedBlock (pageVariable statedPage) fragment.block).children,
        declarator.takesName pageName = true := by
  have h := declaresAlone_statedPage
  simp only [Option.any_eq_true, Bool.and_eq_true, Bool.not_eq_true', List.isEmpty_eq_false_iff,
    List.all_eq_true, Bool.or_eq_true, List.isEmpty_iff] at h
  obtain ⟨fragment, hfragment, hdeclared, hstated⟩ := h
  refine ⟨rfl, fragment, hfragment, hdeclared, ?_⟩
  refine (page_taken_iff rfl hfragment hdeclared).2.2.2.2.2 fun statement hstatement => ?_
  refine (hstated statement hstatement).imp_right fun hnone declarator hdeclarator => ?_
  have hnone : binders (pageVariable statedPage) [statement] = [] := hnone
  rw [hnone] at hdeclarator
  cases hdeclarator

end RouteBinder.Emit.Server
