import RouteBinder.Emit.Client
import RouteBinder.Proofs.Emit.ReplayedLiterals
import RouteBinder.Proofs.Grammar.LiteralValues

/-!
# RouteBinder.Proofs.Emit.CopiedLiterals

**Literals that members copy from a route file.** The member for a redirect has the address in it that the
handler redirects to, and the query of a paginated handler has the key in it that the handler reads its page
with. Both are written in the route file as literals (`exists_redirectLiteral`, `exists_queryLiteral`), and
what stands between the quotes there is written as a literal of its own.

So escapes are taken for what they are written with: the copy denotes the same string exactly when there is no
backslash in the literal, and no carriage return (`copied_literals_iff`).
-/

namespace RouteBinder.Analysis

open Source Text Body

variable {function argument literal : Node} {value url : String}

/-! ### Literals in a handler -/

/-- The argument is the first one of a redirect that the function returns. -/
def RedirectsTo (function argument : Node) : Prop :=
  ∃ returned ∈ function.returnedExpressions, ∃ callee more,
    returned.unwrapAwait?.bind Node.callParts? = some (callee, argument :: more) ∧ callee ∈ redirectCalls

/-- The argument is the first one of a call that reads a query parameter, in what a variable of the function
is initialised with. -/
def ReadsQuery (function argument : Node) : Prop :=
  ∃ body declarator value call object more, function.field? .body = some body ∧
    (declarator ∈ body.ownNodes ∧ declarator.kind = .variableDeclarator ∧
      declarator.field? .value = some value) ∧
    (call ∈ value.preorder ∧ call.kind = .callExpression ∧
      (call.field? .function).bind Node.memberParts? = some (object, "get") ∧
      call.callArguments = argument :: more)

/-- The argument is a string or a template without substitutions, under its wrappers, and the value is what
stands between the quotes. -/
structure CopiedAs (argument literal : Node) (value : String) : Prop where
  unwrap_eq : argument.unwrap? = some literal
  plain : literal.kind = .string ∨
    literal.kind = .templateString ∧ ∀ part ∈ literal.children, part.kind ≠ .templateSubstitution
  value_eq : value = inside literal.text

theorem stringValue?_eq_some_iff :
    argument.stringValue? = some value ↔ ∃ literal, CopiedAs argument literal value := by
  rw [Node.stringValue?, Option.bind_eq_some_iff]
  constructor
  · rintro ⟨literal, hunwrap, h⟩
    split at h
    · rename_i hkind
      exact ⟨literal, hunwrap, Or.inl hkind, (Option.some.inj h).symm⟩
    · rename_i hkind
      obtain ⟨hparts, heq⟩ := Option.ite_none_left_eq_some.1 h
      have hparts : ∀ part ∈ literal.children, part.kind ≠ .templateSubstitution := by
        simpa using hparts
      exact ⟨literal, hunwrap, Or.inr ⟨hkind, hparts⟩, (Option.some.inj heq).symm⟩
    · cases h
  · rintro ⟨literal, hunwrap, hkind | ⟨hkind, hparts⟩, rfl⟩
    · exact ⟨literal, hunwrap, by rw [hkind]⟩
    · refine ⟨literal, hunwrap, ?_⟩
      rw [hkind]
      exact if_neg (by simpa using hparts)

/-- The address of a redirect is copied from a literal. -/
theorem exists_redirectLiteral (h : redirectTarget? function = some url) :
    ∃ argument literal, RedirectsTo function argument ∧ CopiedAs argument literal url := by
  obtain ⟨returned, hreturned, h⟩ := List.exists_of_findSome?_eq_some h
  split at h
  · rename_i callee argument more hparts
    obtain ⟨hcallee, hvalue⟩ := Option.ite_none_right_eq_some.1 h
    obtain ⟨literal, hcopied⟩ := stringValue?_eq_some_iff.1 hvalue
    exact ⟨argument, literal, ⟨returned, hreturned, callee, more, hparts, by simpa using hcallee⟩,
      hcopied⟩
  · cases h

/-- The key of a query variable is copied from a literal. -/
theorem exists_queryLiteral_of_mem {body : Node} {page key : String}
    (hbody : function.field? .body = some body) (h : (page, key) ∈ queryVariables body) :
    ∃ argument literal, ReadsQuery function argument ∧ CopiedAs argument literal key := by
  obtain ⟨declarator, hdeclarator, h⟩ := List.mem_filterMap.1 h
  obtain ⟨howned, hkind⟩ := List.mem_filter.1 hdeclarator
  split at h
  · rename_i pattern key' hpattern hkey
    obtain ⟨-, heq⟩ := Option.ite_none_right_eq_some.1 h
    obtain rfl : key' = key := (Prod.mk.inj (Option.some.inj heq)).2
    obtain ⟨value, hvalue, hkey⟩ := Option.bind_eq_some_iff.1 hkey
    obtain ⟨call, hcall, hkey⟩ := List.exists_of_findSome?_eq_some hkey
    obtain ⟨hcallKind, hkey⟩ := Option.ite_none_right_eq_some.1 hkey
    split at hkey
    · rename_i object argument more hmember harguments
      obtain ⟨literal, hcopied⟩ := stringValue?_eq_some_iff.1 hkey
      exact ⟨argument, literal, ⟨body, declarator, value, call, object, more, hbody,
        ⟨howned, by simpa using hkind, hvalue⟩, hcall, by simpa using hcallKind, hmember, harguments⟩,
        hcopied⟩
    · cases hkey
  · cases h

/-- A handler reads its page from one of its query variables, if it has any. -/
theorem pagination_cases (function : Node) : (∃ body page, function.field? .body = some body ∧
      (page, (pagination function).queryKey) ∈ queryVariables body) ∨
    pagination function = {} ∧ ∀ body, function.field? .body = some body → queryVariables body = [] := by
  unfold pagination
  cases hbody : function.field? .body with
  | none => exact Or.inr ⟨rfl, nofun⟩
  | some body =>
      dsimp only
      -- The three places where a variable is looked for, in their order.
      generalize hskipping : List.findSome? _ (queryVariables body) = skipping
      generalize hnamed : Option.map _ (List.find? _ (queryVariables body).reverse) = named
      generalize hfirst : Option.map _ (queryVariables body).head? = first
      cases skipping with
      | some pages =>
          obtain ⟨⟨page, key⟩, hmem, h⟩ := List.exists_of_findSome?_eq_some hskipping
          obtain ⟨size, -, rfl⟩ := Option.map_eq_some_iff.1 h
          exact Or.inl ⟨body, page, rfl, hmem⟩
      | none =>
          cases named with
          | some pages =>
              obtain ⟨⟨page, key⟩, h, rfl⟩ := Option.map_eq_some_iff.1 hnamed
              exact Or.inl ⟨body, page, rfl, List.mem_reverse.1 (List.mem_of_find?_eq_some h)⟩
          | none =>
              cases first with
              | some pages =>
                  obtain ⟨⟨page, key⟩, h, rfl⟩ := Option.map_eq_some_iff.1 hfirst
                  exact Or.inl ⟨body, page, rfl, List.mem_of_mem_head? h⟩
              | none =>
                  have hnil := List.head?_eq_none_iff.1 (Option.map_eq_none_iff.1 hfirst)
                  refine Or.inr ⟨rfl, fun other hother => ?_⟩
                  rw [← Option.some.inj hother, hnil]

theorem exists_queryLiteral (function : Node) :
    (∃ argument literal, ReadsQuery function argument ∧
        CopiedAs argument literal (pagination function).queryKey) ∨
      pagination function = {} ∧ ∀ body, function.field? .body = some body → queryVariables body = [] :=
  (pagination_cases function).imp_left fun ⟨_, _, hbody, hmem⟩ => exists_queryLiteral_of_mem hbody hmem

/-- What the description of a handler says of redirects and pages. -/
theorem copied_of_describe [Recovery] {program : Node} {module : Scope} {site : HandlerSite}
    {handler : Handler} (h : describe program module site = .ok handler) :
    handler.redirectUrl = redirectTarget? site.function ∧
      (handler.redirectUrl.isSome → handler.marker = .redirect) ∧
      ∀ pages, handler.pagination = some pages →
        handler.marker = .paginated ∧ pages = pagination site.function := by
  rw [describe] at h
  cases hout : outputType (HandlerContext.ofFunction site.function module).scope site.function
      site.returnType with
  | error cause =>
      simp only [hout] at h
      cases h
  | ok output =>
      simp only [hout] at h
      cases h
      refine ⟨rfl, fun hurl => if_pos hurl, fun pages hpages => ?_⟩
      obtain ⟨hmarker, heq⟩ := Option.ite_none_right_eq_some.1 hpages
      exact ⟨beq_iff_eq.1 hmarker, (Option.some.inj heq).symm⟩

end RouteBinder.Analysis

namespace RouteBinder.Emit

open Source Text Route Analysis Body
open Server (anyHandler exists_of_anyHandler)

variable {handler : Handler} {url : String}

/-! ### Copies in the members -/

theorem newline_not_mem_literal (text : String) : '\n' ∉ (Quoted.literal text).toList :=
  fun h => ((Quoted.mem_literal_iff (by decide)).1 h).2 rfl

/-- A line stays a part of an indented text. -/
theorem infix_indent {text : String} (hline : '\n' ∉ text.toList) (hblank : isBlankLine text.toList = false)
    (level : Nat) : text.toList <:+: (indent text level).toList := by
  have hlines : lines (unlines [text.toList]) = [text.toList] :=
    lines_unlines (List.cons_ne_nil _ _) (by simpa using hline)
  rw [show unlines [text.toList] = text.toList from rfl] at hlines
  simp only [indent, String.toList_ofList, hlines, List.map_singleton, hblank, Bool.false_eq_true, if_false]
  exact (List.suffix_append _ _).isInfix

theorem Client.infix_redirectMember (hmarker : handler.marker = .redirect)
    (hurl : handler.redirectUrl = some url) (directories : List String) :
    ("  const url = " ++ Quoted.literal url ++ " + ").toList <:+:
      (Client.member handler directories).toList := by
  have hmember : Client.member handler directories = (optionsSignature handler ++ ": void => \x7b\n") ++
      ("  const url = " ++ Quoted.literal url ++ " + ") ++
      (querySuffix ++ ";\n" ++ "  window.location.assign(url);\n" ++ "\x7d") := by
    simp only [Client.member, hmarker, redirectMember, hurl, Option.getD_some, String.append_assoc]
  rw [hmember]
  exact infix_toList_append _ _ _

theorem Server.infix_redirectMember [Recovery] (hmarker : handler.marker = .redirect)
    (hurl : handler.redirectUrl = some url) (directories : List String) :
    ("redirect(" ++ Quoted.literal url ++ ");").toList <:+: (Server.member handler directories).toList := by
  simp only [Server.member, hmarker, redirectMember, hurl, Option.getD_some, wrapped]
  have hline : '\n' ∉ ("redirect(" ++ Quoted.literal url ++ ");").toList := by
    simp [newline_not_mem_literal]
  have hblank : isBlankLine ("redirect(" ++ Quoted.literal url ++ ");").toList = false := by
    have hfirst : isBlank 'r' = false := by decide
    simp [isBlankLine, hfirst]
  exact (infix_indent hline hblank 1).trans (infix_toList_append _ _ _)

theorem infix_append_text (text back : String) : text.toList <:+: (text ++ back).toList := by
  rw [String.toList_append]
  exact (List.prefix_append _ _).isInfix

theorem Client.infix_infiniteMember {pages : Pagination} (hmarker : handler.marker = .paginated)
    (hget : handler.isGet = true) (hpages : handler.pagination = some pages) (directories : List String) :
    ("fetch(" ++ Address.template directories ++ " + '?' + new URLSearchParams(\x7b ...searchParams, " ++
      Quoted.literal pages.queryKey ++ ": String(pageParam) \x7d))").toList <:+:
        (Client.member handler directories).toList := by
  have hmember : Client.member handler directories =
      infiniteMember handler (optionsSignature handler) (Address.template directories) := by
    unfold Client.member
    rw [hmarker, hget]
  rw [hmember]
  -- An equation for a text of so many pieces would be slow to derive.
  delta infiniteMember
  rw [hpages]
  -- The rest of the line stands behind the request, and two more lines.
  exact (infix_toList_append _ _ _).trans ((infix_append_text _ _).trans (infix_append_text _ _))

/-! ### What the copies denote -/

/-- The addresses and keys in the members of a handler are copied from literals of the handler, if there are
any. The copy of a literal denotes what the literal denotes exactly when this has no backslash and no
carriage return. -/
theorem copied_literals_iff [Recovery] {program : Node} {module : Scope} {site : HandlerSite}
    (h : describe program module site = .ok handler) :
    (∀ url, handler.redirectUrl = some url →
      (∃ argument literal, RedirectsTo site.function argument ∧ CopiedAs argument literal url) ∧
      ∀ directories,
        ("  const url = " ++ Quoted.literal url ++ " + ").toList <:+:
          (Client.member handler directories).toList ∧
        ("redirect(" ++ Quoted.literal url ++ ");").toList <:+:
          (Server.member handler directories).toList) ∧
    (∀ pages, handler.pagination = some pages →
      ((∃ argument literal, ReadsQuery site.function argument ∧ CopiedAs argument literal pages.queryKey) ∨
        pages = {} ∧ ∀ body, site.function.field? .body = some body → queryVariables body = []) ∧
      (handler.isGet = true → ∀ directories,
        ("fetch(" ++ Address.template directories ++ " + '?' + new URLSearchParams(\x7b ...searchParams, " ++
          Quoted.literal pages.queryKey ++ ": String(pageParam) \x7d))").toList <:+:
            (Client.member handler directories).toList)) ∧
    ∀ argument literal value units, CopiedAs argument literal value →
      Grammar.literalUnits? literal.text = some units →
        (Grammar.literalUnits? (Quoted.literal value) = some units ↔
          '\\' ∉ literal.text.toList ∧ '\r' ∉ literal.text.toList) := by
  obtain ⟨hredirect, hmarker, hpagination⟩ := copied_of_describe h
  refine ⟨fun url hurl => ⟨exists_redirectLiteral (hredirect ▸ hurl), fun directories => ?_⟩,
    fun pages hpages => ?_, fun argument literal value units hcopied hunits => ?_⟩
  · have hmarker := hmarker (by rw [hurl]; rfl)
    exact ⟨Client.infix_redirectMember hmarker hurl directories,
      Server.infix_redirectMember hmarker hurl directories⟩
  · obtain ⟨hmarker, rfl⟩ := hpagination pages hpages
    exact ⟨exists_queryLiteral site.function, fun hget => Client.infix_infiniteMember hmarker hget hpages⟩
  · rw [hcopied.value_eq]
    exact Grammar.literalUnits?_inside_iff hunits

/-- A handler that redirects to what a literal denotes. -/
def redirecting (literal : String) : String :=
  "export function GET() \x7b\n  return Response.redirect(" ++ literal ++ ");\n\x7d\n"

/-- The address is copied from a literal with this text, which a returned redirect has as its argument. -/
def copies (text url : String) (site : HandlerSite) (handler : Handler) : Bool :=
  handler.redirectUrl = some url && inside text = url &&
    site.function.returnedExpressions.any fun returned =>
      match returned.unwrapAwait?.bind Node.callParts? with
      | some (callee, argument :: _) => redirectCalls.contains callee &&
          argument.unwrap?.any fun literal => literal.text = text && (literal.kind = .string ||
            (literal.kind = .templateString && literal.children.all (·.kind != .templateSubstitution)))
      | _ => false

theorem exists_of_copies [Recovery] {source text : String}
    (h : (Grammar.parse? source).any (anyHandler (copies text url)) = true) :
    ∃ program site handler argument literal, Grammar.parse? source = some program ∧
      site ∈ discoverHandlers program ∧ describe program (.ofModule program) site = .ok handler ∧
      handler.redirectUrl = some url ∧ RedirectsTo site.function argument ∧
      CopiedAs argument literal url ∧ literal.text = text := by
  obtain ⟨program, site, handler, hparse, hsite, hd, h⟩ := exists_of_anyHandler h
  simp only [copies, Bool.and_eq_true, decide_eq_true_eq] at h
  obtain ⟨⟨hurl, hinside⟩, h⟩ := h
  obtain ⟨returned, hreturned, h⟩ := List.any_eq_true.1 h
  split at h
  · rename_i callee argument more hparts
    obtain ⟨hcallee, h⟩ := Bool.and_eq_true_iff.1 h
    obtain ⟨literal, hunwrap, h⟩ := (Option.any_eq_true _ _).1 h
    simp only [Bool.and_eq_true, Bool.or_eq_true, decide_eq_true_eq, List.all_eq_true, bne_iff_ne] at h
    obtain ⟨rfl, hkind⟩ := h
    exact ⟨program, site, handler, argument, literal, hparse, hsite, hd, hurl,
      ⟨returned, hreturned, callee, more, hparts, by simpa using hcallee⟩,
      ⟨hunwrap, hkind, hinside.symm⟩, rfl⟩
  · cases h

attribute [local instance] Recovery.verbatim

set_option maxRecDepth 1000000 in
/-- A template with a quote in it, which is escaped in the copy. -/
theorem copied_literals_template : ∃ program site handler argument literal units,
    Grammar.parse? (redirecting "`/it's`") = some program ∧ site ∈ discoverHandlers program ∧
      describe program (.ofModule program) site = .ok handler ∧ RedirectsTo site.function argument ∧
      CopiedAs argument literal "/it's" ∧ literal.text = "`/it's`" ∧
      Grammar.literalUnits? literal.text = some units ∧
      Grammar.literalUnits? "'/it\\'s'" = some units ∧
      "redirect('/it\\'s');".toList <:+: (Server.member handler []).toList := by
  obtain ⟨program, site, handler, argument, literal, hparse, hsite, hd, hurl, hredirects, hcopied, htext⟩ :=
    @exists_of_copies "/it's" _ (redirecting "`/it's`") "`/it's`" (by decide +kernel)
  obtain ⟨haddress, -, hdenotes⟩ := copied_literals_iff hd
  have hunits : Grammar.literalUnits? literal.text = some (Grammar.codeUnits "/it's".toList) := by
    rw [htext]
    decide +kernel
  have hplain : '\\' ∉ literal.text.toList ∧ '\r' ∉ literal.text.toList := by
    rw [htext]
    decide +kernel
  have hliteral : Quoted.literal "/it's" = "'/it\\'s'" := by decide +kernel
  have hsame := (hdenotes argument literal _ _ hcopied hunits).2 hplain
  have hserver := ((haddress _ hurl).2 []).2
  rw [hliteral] at hsame hserver
  exact ⟨program, site, handler, argument, literal, _, hparse, hsite, hd, hredirects, hcopied, htext,
    hunits, hsame, hserver⟩

set_option maxRecDepth 1000000 in
/-- An escaped quote is copied with its backslash, as two characters. -/
theorem not_copied_literals_escapedQuote : ∃ program site handler argument literal,
    Grammar.parse? (redirecting "'/it\\'s'") = some program ∧ site ∈ discoverHandlers program ∧
      describe program (.ofModule program) site = .ok handler ∧ handler.redirectUrl = some "/it\\'s" ∧
      RedirectsTo site.function argument ∧ CopiedAs argument literal "/it\\'s" ∧
      Grammar.literalUnits? literal.text = some (Grammar.codeUnits "/it's".toList) ∧
      Grammar.literalUnits? (Quoted.literal "/it\\'s") = some (Grammar.codeUnits "/it\\'s".toList) ∧
      Grammar.codeUnits "/it\\'s".toList ≠ Grammar.codeUnits "/it's".toList ∧
      ("  const url = " ++ Quoted.literal "/it\\'s" ++ " + ").toList <:+: (Client.member handler []).toList ∧
      ("redirect(" ++ Quoted.literal "/it\\'s" ++ ");").toList <:+: (Server.member handler []).toList := by
  obtain ⟨program, site, handler, argument, literal, hparse, hsite, hd, hurl, hredirects, hcopied, htext⟩ :=
    @exists_of_copies "/it\\'s" _ (redirecting "'/it\\'s'") "'/it\\'s'" (by decide +kernel)
  have hmarker := (copied_of_describe hd).2.1 (by rw [hurl]; rfl)
  refine ⟨program, site, handler, argument, literal, hparse, hsite, hd, hurl, hredirects, hcopied, ?_,
    by decide +kernel, by decide +kernel, Client.infix_redirectMember hmarker hurl [],
    Server.infix_redirectMember hmarker hurl []⟩
  rw [htext]
  decide +kernel

end RouteBinder.Emit
