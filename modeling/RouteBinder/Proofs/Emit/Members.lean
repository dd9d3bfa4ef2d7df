import RouteBinder.Emit.Server
import RouteBinder.Proofs.Text.Mentions

/-!
# RouteBinder.Proofs.Emit.Members

**Handlers in the accessor object.** The object of a tree mentions every name that the member for one of
its handlers mentions, however deep the handler's node is (`mentions_accessorObject`). A member for the
server that is not a redirect runs one text, the body as it is replayed (`Server.replayed`), so the
object for the server mentions the names that replayed bodies mention (`Server.mentions_of_replayed`).
-/

namespace RouteBinder.Emit

open Text Route Body

variable {emit : MemberEmitter} {name : String} {directories : List String} {node : RouteTree}
  {handler : Handler}

/-- Indenting a line keeps the property. -/
def KeptByIndent (Q : String → Prop) : Prop := ∀ line, Q line → Q (indent line 1)

variable {Q : String → Prop}

mutual
/-- A property that indenting keeps holds of a line of the object if it holds of a member. -/
theorem exists_bodyLine (hindent : KeptByIndent Q) (hhandler : handler ∈ node.handlers)
    (h : Q (memberLine emit directories handler)) :
    ∀ (above : List String) (tree : RouteTree), (directories, node) ∈ tree.entriesFrom above →
      ∃ line ∈ bodyLines emit above tree, Q line
  | above, .node info children, hentry => by
      rw [RouteTree.entriesFrom, List.mem_cons] at hentry
      rw [bodyLines]
      -- The handler belongs to the node itself, or to one below it.
      rcases hentry with hself | hbelow
      · cases hself
        exact ⟨_, List.mem_append_left _ (List.mem_map_of_mem hhandler), h⟩
      · obtain ⟨line, hline, hQ⟩ := exists_childLine hindent hhandler h above children hbelow
        exact ⟨line, List.mem_append_right _ hline, hQ⟩

theorem exists_childLine (hindent : KeptByIndent Q) (hhandler : handler ∈ node.handlers)
    (h : Q (memberLine emit directories handler)) :
    ∀ (above : List String) (children : List (String × RouteTree)),
      (directories, node) ∈ RouteTree.entriesOfChildren above children →
        ∃ line ∈ childLines emit above children, Q line
  | _, [], hentry => absurd hentry List.not_mem_nil
  | above, (key, child) :: rest, hentry => by
      rw [RouteTree.entriesOfChildren, List.mem_append] at hentry
      rw [childLines]
      rcases hentry with hchild | hrest
      · obtain ⟨line, hline, hQ⟩ := exists_bodyLine hindent hhandler h _ child hchild
        refine ⟨indent line 1, ?_, hindent line hQ⟩
        exact List.mem_append_left _ (List.mem_cons_of_mem _ (List.mem_map_of_mem hline))
      · obtain ⟨line, hline, hQ⟩ := exists_childLine hindent hhandler h above rest hrest
        exact ⟨line, List.mem_append_right _ (List.mem_cons_of_mem _ hline), hQ⟩
end

/-- What indenting and joining lines keep holds of the object of a tree if it holds of a member. -/
theorem accessorObject_of_memberLine {tree : RouteTree} (hindent : KeptByIndent Q)
    (hjoin : ∀ line lines, line ∈ lines → Q line → Q (String.intercalate "\n" lines))
    (hentry : (directories, node) ∈ tree.entries) (hhandler : handler ∈ node.handlers)
    (h : Q (memberLine emit directories handler)) : Q (accessorObject tree emit) := by
  obtain ⟨line, hline, hQ⟩ := exists_bodyLine hindent hhandler h [] tree hentry
  unfold accessorObject
  split
  · rename_i hnil
    rw [hnil] at hline
    exact absurd hline List.not_mem_nil
  · exact hjoin line _ (List.mem_append_left _ (List.mem_cons_of_mem _ hline)) hQ

/-- The object of a tree mentions what its members mention. -/
theorem mentions_accessorObject {tree : RouteTree} (hentry : (directories, node) ∈ tree.entries)
    (hhandler : handler ∈ node.handlers) (hname : IsName name)
    (h : mentions (emit handler directories) name = true) :
    mentions (accessorObject tree emit) name = true := by
  refine accessorObject_of_memberLine (Q := fun text => mentions text name = true)
    (fun _ => mentions_indent 1 hname) (fun _ _ => mentions_intercalate) hentry hhandler ?_
  refine mentions_indent 1 hname ?_
  rw [mentions_iff] at h ⊢
  have hfront : joinedAfter false ((handler.verb ++ ": ").toList) = false := by
    rw [String.toList_append, show ": ".toList = [':'] ++ [' '] from rfl, ← List.append_assoc,
      joinedAfter_concat]
    decide +kernel
  have := h.append hfront (show startsOutside ",".toList = true by decide +kernel)
  simpa only [String.toList_append, List.append_assoc] using this

namespace Server

/-- What the member for a handler runs: the declarations that the body needs, and the body as it is
replayed. A redirect replays nothing. -/
def replayed [Recovery] (handler : Handler) (directories : List String) : Option String :=
  match handler.marker with
  | .redirect => none
  | .paginated =>
    let body := pagedBody handler directories
    let usesQuery := (Body.references body).contains handler.request
    some (withPreamble (preamble handler body usesQuery (queryName body)) body)
  | _ =>
    let body := Body.applyAll (commonRules handler directories) handler.body
    let names := Body.references body
    let usesQuery := names.contains handler.request || names.contains "searchParams"
    some (withPreamble (preamble handler body usesQuery (queryName body)) body)

theorem exists_member_eq_wrapped [Recovery] {text : String}
    (h : replayed handler directories = some text) :
    ∃ params, member handler directories = wrapped params text := by
  unfold replayed at h
  unfold member
  cases hmarker : handler.marker with
  | redirect =>
      rw [hmarker] at h
      cases h
  | paginated =>
      rw [hmarker] at h
      cases h
      exact ⟨_, rfl⟩
  | plain =>
      rw [hmarker] at h
      cases h
      exact ⟨_, rfl⟩
  | streaming =>
      rw [hmarker] at h
      cases h
      exact ⟨_, rfl⟩
  | mutation =>
      rw [hmarker] at h
      cases h
      exact ⟨_, rfl⟩

theorem mentions_wrapped {text params : String} (hname : IsName name)
    (h : mentions text name = true) : mentions (wrapped params text) name = true := by
  have hindent := mentions_indent 1 hname h
  rw [mentions_iff] at hindent ⊢
  have hfront : joinedAfter false
      ("(" ++ params ++ ") => tryCatchFunction(async () => \x7b\n").toList = false := by
    rw [String.toList_append,
      show ") => tryCatchFunction(async () => \x7b\n".toList =
        ") => tryCatchFunction(async () => \x7b".toList ++ ['\n'] from rfl,
      ← List.append_assoc, joinedAfter_concat]
    decide +kernel
  have := hindent.append hfront (show startsOutside "\n\x7d)".toList = true by decide +kernel)
  simpa only [wrapped, String.toList_append, List.append_assoc] using this

/-- The object for the server mentions what a replayed body mentions. -/
theorem mentions_of_replayed [Recovery] {tree : RouteTree} {text : String}
    (hentry : (directories, node) ∈ tree.entries) (hhandler : handler ∈ node.handlers)
    (hreplayed : replayed handler directories = some text) (hname : IsName name)
    (h : mentions text name = true) : mentions (accessorObject tree member) name = true := by
  obtain ⟨params, hparams⟩ := exists_member_eq_wrapped hreplayed
  refine mentions_accessorObject hentry hhandler hname ?_
  rw [hparams]
  exact mentions_wrapped hname h

end Server

end RouteBinder.Emit
