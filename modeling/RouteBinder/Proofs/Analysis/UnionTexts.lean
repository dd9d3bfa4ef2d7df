import RouteBinder.Proofs.Analysis.TypeTexts

/-!
# RouteBinder.Proofs.Analysis.UnionTexts

**Unions from the texts of their members.** The members are joined one by one, and what has been joined so far
denotes the union of the members read so far. So a union is read as it was written when each of its members
ends at the bar behind it, and the last of them at the end of the whole (`readAt_union`).
-/

namespace RouteBinder.Analysis

open Source Grammar Parse TypeExpr

variable {inner : Inner} {boundary : Boundary} {rest : List Char} {type : TypeExpr}
  {members : List TypeExpr} {item : Item}

/-- The members of a union behind the first ones. -/
def joined (inner : Inner) (boundary : Boundary) : Item → Parse Item :=
  Parse.chain fun left => do
    goesOn boundary
    Parse.require (!(← seesMark "||") && !(← seesMark "|="))
    let bar ← mark "|"
    let right ← operand inner boundary
    pure (.branch .unionType [left, bar, right])

/-- One more member is read into the union. -/
theorem joined_start {text : List Char} {member : TypeExpr} (hitem : Denotes type item.node)
    (h : Reads (operand inner boundary) text rest member) :
    ∃ grown, joined inner boundary item (.start (' ' :: '|' :: ' ' :: (text ++ rest))) =
        joined inner boundary grown (.start rest) ∧
      Denotes (unionOf [type, member]) grown.node := by
  obtain ⟨right, hright, hdenotes⟩ := h [' '] spaces_one
  have hfaces : (Cursor.start (' ' :: '|' :: ' ' :: (text ++ rest))).rest =
      '|' :: ' ' :: (text ++ rest) := rest_start spaces_one (by decide)
  have hrequire : require (!"||".toList.isPrefixOf
        (Cursor.start (' ' :: '|' :: ' ' :: (text ++ rest))).rest &&
      !"|=".toList.isPrefixOf (Cursor.start (' ' :: '|' :: ' ' :: (text ++ rest))).rest)
        (.start (' ' :: '|' :: ' ' :: (text ++ rest))) =
      some ((), .start (' ' :: '|' :: ' ' :: (text ++ rest))) := by
    rw [hfaces]
    rfl
  refine ⟨.branch .unionType [item, tokenItem [' '] .symbol "|", right], ?_, ?_⟩
  · refine chain_start (' ' :: '|' :: ' ' :: text) ?_ (List.cons_ne_nil _ _)
    refine (goesOn_start spaces_one (by decide) (by decide)).trans ?_
    refine (run_bind rfl).trans ((run_bind rfl).trans ((run_bind hrequire).trans ?_))
    refine (run_bind (mark_char spaces_one (by decide) (by decide))).trans ?_
    exact (run_bind hright).trans rfl
  · refine { isNamed := rfl, kind_ne := nofun, written := ?_ }
    rw [writtenType_unionType rfl, namedChildren_branch writtenType_placedAt]
    rw [List.map_cons, List.map_cons, List.map_singleton,
      List.filter_cons_of_pos hitem.isConstruct,
      List.filter_cons_of_neg (by rw [isConstruct_tokenItem]; decide),
      List.filter_cons_of_pos hdenotes.isConstruct, List.filter_nil, List.map_cons,
      List.map_singleton, hitem.written, hdenotes.written]

/-- The members of a union that can be read where they stand: only the last of them ends the union. -/
structure ReadAsMembers (members : List TypeExpr) : Prop where
  inside : ∀ member ∈ members.dropLast, ReadAt .member member.render member
  last : ∀ member ∈ members.getLast?, ReadAt .last member.render member

/-- Where the first of the members stands. -/
theorem ReadAsMembers.cons {member : TypeExpr} (h : ReadAsMembers (member :: members)) :
    (members = [] ∧ ReadAt .last member.render member) ∨
      (∃ second more, members = second :: more) ∧ ReadAt .member member.render member ∧
        ReadAsMembers members := by
  cases members with
  | nil => exact Or.inl ⟨rfl, h.last member rfl⟩
  | cons second more =>
      exact Or.inr ⟨⟨second, more, rfl⟩, h.inside member List.mem_cons_self,
        fun other hother => h.inside other (List.mem_cons_of_mem _ hother), h.last⟩

theorem toList_renderMembers_cons (member : TypeExpr) (members : List TypeExpr) :
    (renderMembers (member :: members)).toList =
      ' ' :: '|' :: ' ' :: (member.render.toList ++ (renderMembers members).toList) := by
  rw [renderMembers, String.toList_append, String.toList_append]
  rfl

/-- A member is read up to the bar behind it, or up to the end of the union. -/
theorem ReadAsMembers.reads_operand {member : TypeExpr} (h : ReadAsMembers (member :: members))
    {depth : Nat} (hdepth : stepsPerCharacter * member.render.length < depth) (hcloses : Closes rest) :
    Reads (operand (.ofDepth depth) boundary) member.render.toList
      ((renderMembers members).toList ++ rest) member := by
  rcases h.cons with ⟨rfl, hlast⟩ | ⟨⟨second, more, rfl⟩, hmember, -⟩
  · exact hlast.reads depth boundary _ hdepth (.last hcloses)
  · rw [toList_renderMembers_cons]
    exact hmember.reads depth boundary _ hdepth (.member _)

/-- The members behind the first ones are read one by one. -/
theorem exists_joined {read : List TypeExpr} {depth : Nat} (hmembers : members = [] ∨ ReadAsMembers members)
    (hdepth : stepsPerCharacter * (renderMembers members).length < depth) (hcloses : Closes rest)
    (hne : read ≠ []) (hparts : ∀ member ∈ read ++ members, member.IsMember)
    (hnodup : (read ++ members).Nodup) (hitem : Denotes (unionOf read) item.node) :
    ∃ whole, joined (.ofDepth depth) boundary item (.start ((renderMembers members).toList ++ rest)) =
        some (whole, .start rest) ∧
      Denotes (unionOf (read ++ members)) whole.node := by
  induction members generalizing read item with
  | nil =>
      obtain ⟨c, hc, hfaces⟩ := hcloses.faces
      have hmark : '|' ≠ c := by
        simp only [List.mem_cons, List.not_mem_nil, or_false] at hc
        rcases hc with rfl | rfl | rfl <;> decide
      refine ⟨item, chain_refused (goesOn_refused ?_), by rwa [List.append_nil]⟩
      refine (run_bind rfl).trans ((run_bind rfl).trans (require_refused (run_bind_none ?_)))
      exact mark_refused hfaces (d := '|') (by decide) hmark
  | cons member members ih =>
      have hread := hmembers.resolve_left (List.cons_ne_nil _ _)
      have hlength := congrArg List.length (toList_renderMembers_cons member members)
      rw [String.length_toList, List.length_cons, List.length_cons, List.length_cons,
        List.length_append, String.length_toList, String.length_toList] at hlength
      have hoperand : Reads (operand (.ofDepth depth) boundary) member.render.toList
          ((renderMembers members).toList ++ rest) member :=
        hread.reads_operand (steps_lt_of_le hdepth (by omega)) hcloses
      obtain ⟨grown, hgrown, hdenotes⟩ := joined_start hitem hoperand
      have hleft : ∀ other ∈ read, other.IsMember := fun other hother =>
        hparts other (List.mem_append_left _ hother)
      rw [unionOf_concat hleft (List.nodup_append.1 hnodup).1 hne] at hdenotes
      rw [List.append_cons] at hparts hnodup ⊢
      have hmore : members = [] ∨ ReadAsMembers members := by
        rcases hread.cons with ⟨hnil, -⟩ | ⟨-, -, hmore⟩
        · exact Or.inl hnil
        · exact Or.inr hmore
      obtain ⟨whole, hwhole, hunion⟩ := ih hmore (steps_lt_of_le hdepth (by omega)) (by simp) hparts hnodup hdenotes
      refine ⟨whole, ?_, hunion⟩
      rw [toList_renderMembers_cons, List.cons_append, List.cons_append, List.cons_append,
        List.append_assoc, hgrown, hwhole]

/-- A union is read from the texts of its members. -/
theorem readAt_union (hnormal : Normal (.union members)) (h : ReadAsMembers members) :
    ReadAt .whole (render (.union members)) (.union members) := by
  cases hnormal with
  | union hlength hnodup hparts _ =>
  cases members with
  | nil => cases hlength
  | cons first members =>
  rcases h.cons with ⟨rfl, -⟩ | ⟨⟨second, more, rfl⟩, hfirst, hmore⟩
  · exact absurd hlength (Nat.not_succ_le_self 1)
  rw [render]
  refine ⟨?_, fun depth boundary rest hdepth hends => ?_⟩
  · obtain ⟨c, hhead, hc⟩ := hfirst.begins
    refine ⟨c, ?_, hc⟩
    rw [String.toList_append, List.head?_append, hhead]
    rfl
  cases hends with
  | whole hcloses =>
  rw [String.length_append] at hdepth
  refine reads_typeRule (fun blanks hblanks => ?_) hcloses
  rw [String.toList_append, List.append_assoc]
  have hoperand : Reads (operand (.ofDepth depth) boundary) first.render.toList
      ((renderMembers (second :: more)).toList ++ rest) first :=
    h.reads_operand (steps_lt_of_le hdepth (Nat.le_add_right _ _)) hcloses
  obtain ⟨item, hitem, hdenotes⟩ := hoperand blanks hblanks
  rw [← unionOf_singleton (hparts first List.mem_cons_self)] at hdenotes
  obtain ⟨whole, hwhole, hunion⟩ := @exists_joined boundary rest _ item [first] depth (Or.inr hmore)
    (steps_lt_of_le hdepth (Nat.le_add_left _ _)) hcloses (List.cons_ne_nil _ _) hparts hnodup hdenotes
  rw [List.singleton_append, unionOf_members hparts hnodup hlength] at hunion
  obtain ⟨c, hfaces, hbar, -⟩ := hfirst.begins.faces
    ((renderMembers (second :: more)).toList ++ rest) hblanks
  refine ⟨whole, ?_, hunion⟩
  refine (run_bind (run_optional_none (mark_refused hfaces (d := '|') (by decide) hbar))).trans ?_
  exact (run_bind hitem).trans hwhole

end RouteBinder.Analysis
