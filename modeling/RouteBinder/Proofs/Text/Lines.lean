import Mathlib.Data.String.Basic
import RouteBinder.Text.Lines

/-!
# RouteBinder.Proofs.Text.Lines

**Pieces of a text and the text.** Splitting and joining are the library's `List.splitOn` and
`List.intercalate` (`splitOn_eq`, `joinWith_eq`), so a text is its lines put together again
(`unlines_lines`). A word that does not reach over a line end stands in one of the lines
(`exists_line`).
-/

namespace RouteBinder.Text

theorem splitOn_eq (mark : Char) (text : List Char) : splitOn mark text = text.splitOn mark := by
  induction text with
  | nil => rfl
  | cons c rest ih =>
      rw [splitOn, List.splitOn_cons_eq_if_modifyHead, ih]
      split
      · rfl
      · obtain ⟨piece, pieces, hpieces⟩ :=
          List.exists_cons_of_ne_nil (List.splitOn_ne_nil mark rest)
        rw [hpieces]
        rfl

theorem splitOn_replicate (mark : Char) (n : Nat) (text : List Char) :
    splitOn mark (List.replicate n mark ++ text) = List.replicate n [] ++ splitOn mark text := by
  induction n with
  | zero => rfl
  | succ n ih => simp [List.replicate_succ, splitOn, ih]

theorem joinWith_eq (mark : Char) (pieces : List (List Char)) :
    joinWith mark pieces = [mark].intercalate pieces := by
  induction pieces with
  | nil => rfl
  | cons piece rest ih =>
      cases rest with
      | nil => simp [joinWith]
      | cons next rest => simp [joinWith, ih]

theorem unlines_lines (text : List Char) : unlines (lines text) = text := by
  rw [unlines, lines, joinWith_eq, splitOn_eq, List.intercalate_splitOn]

/-- A word without `mark` stands in front of a mark or behind it. -/
theorem before_or_behind_mark {mark : Char} {word piece rest before after : List Char}
    (hword : word ≠ []) (hmark : mark ∉ word)
    (h : piece ++ mark :: rest = before ++ (word ++ after)) :
    (∃ tail, piece = before ++ (word ++ tail) ∧ tail <+: after) ∨
      ∃ front, rest = front ++ (word ++ after) ∧ front <:+ before := by
  rcases List.append_eq_append_iff.1 h with ⟨front, hbefore, hrest⟩ | ⟨back, hpiece, hback⟩
  · right
    cases front with
    | nil =>
        -- The word would begin with the mark.
        obtain ⟨c, cs, rfl⟩ := List.exists_cons_of_ne_nil hword
        rw [List.nil_append, List.cons_append, List.cons.injEq] at hrest
        exact absurd (hrest.1 ▸ List.mem_cons_self) hmark
    | cons c front =>
        rw [List.cons_append, List.cons.injEq] at hrest
        refine ⟨front, hrest.2, ?_⟩
        rw [hbefore]
        exact (List.suffix_cons c front).trans (List.suffix_append _ _)
  · left
    rcases List.append_eq_append_iff.1 hback with ⟨inner, hinner, hafter⟩ | ⟨tail, hw, htail⟩
    · exact ⟨inner, by rw [hpiece, hinner], ⟨_, hafter.symm⟩⟩
    · cases tail with
      | nil =>
          rw [List.append_nil] at hw
          exact ⟨[], by rw [hpiece, hw, List.append_nil], List.nil_prefix⟩
      | cons c tail =>
          -- The word would reach over the mark.
          rw [List.cons_append, List.cons.injEq] at htail
          refine absurd ?_ hmark
          rw [hw, htail.1]
          exact List.mem_append_right _ List.mem_cons_self

/-- A word without `mark` stands in one of the pieces, and what is around it there is what is around
it in the text. -/
theorem exists_piece {mark : Char} {word : List Char} (hword : word ≠ []) (hmark : mark ∉ word)
    {pieces : List (List Char)} :
    ∀ {before after : List Char}, joinWith mark pieces = before ++ (word ++ after) →
      ∃ piece ∈ pieces, ∃ before' after', piece = before' ++ (word ++ after') ∧
        before' <:+ before ∧ after' <+: after := by
  induction pieces with
  | nil =>
      intro before after h
      have hnil : before ++ (word ++ after) = [] := h.symm
      rw [List.append_eq_nil_iff, List.append_eq_nil_iff] at hnil
      exact absurd hnil.2.1 hword
  | cons piece rest ih =>
      intro before after h
      cases rest with
      | nil =>
          exact ⟨piece, List.mem_singleton_self piece, before, after, h, List.suffix_rfl,
            List.prefix_rfl⟩
      | cons next rest =>
          rcases before_or_behind_mark hword hmark h with ⟨tail, hpiece, htail⟩ | ⟨front, hrest, hfront⟩
          · exact ⟨piece, List.mem_cons_self, before, tail, hpiece, List.suffix_rfl, htail⟩
          · obtain ⟨found, hfound, before', after', heq, hbefore, hafter⟩ := ih hrest
            exact ⟨found, List.mem_cons_of_mem _ hfound, before', after', heq,
              hbefore.trans hfront, hafter⟩

end RouteBinder.Text
