import Mathlib.Data.List.DropRight
import RouteBinder.Proofs.Text.Lines

/-!
# RouteBinder.Proofs.Text.Margins

**What cleaning up a text keeps.** Retained bodies are dedented, tidied and indented as plain text. All
of this adds and removes blanks next to line breaks, and nothing else: `flush`, the text without any of
them, stays the same (`flush_blockContent`, `flush_tidy`, `flush_indent`).

A part of a text stays a part of it when both are made flush (`infix_flush`), so what stands in a text
stands in the cleaned-up text too, up to blanks next to its line breaks. A part that lies within one line
has none, and stays as it is (`infix_of_flush_infix`).
-/

namespace RouteBinder.Text

variable {p : Char → Bool} {core front back text other : List Char}

/-! ### Trimming -/

/-- The text is not empty, and no character at its ends satisfies `p`. -/
structure Solid (p : Char → Bool) (core : List Char) : Prop where
  ne_nil : core ≠ []
  head : ∀ c ∈ core.head?, p c = false
  last : ∀ c ∈ core.getLast?, p c = false

theorem Solid.reverse (h : Solid p core) : Solid p core.reverse where
  ne_nil := mt List.reverse_eq_nil_iff.1 h.ne_nil
  head := by
    rw [List.head?_reverse]
    exact h.last
  last := by
    rw [List.getLast?_reverse]
    exact h.head

theorem dropEndWhile_eq (p : Char → Bool) (text : List Char) :
    dropEndWhile p text = text.rdropWhile p := rfl

theorem dropWhile_append_solid (h : Solid p core) :
    (front ++ (core ++ back)).dropWhile p = front.dropWhile p ++ (core ++ back) := by
  obtain ⟨c, rest, rfl⟩ := List.exists_cons_of_ne_nil h.ne_nil
  have hc : p c = false := h.head c rfl
  rw [List.dropWhile_append]
  split
  · rename_i hnil
    rw [List.isEmpty_iff.1 hnil, List.cons_append,
      List.dropWhile_cons_of_neg (by rw [hc]; exact Bool.false_ne_true), List.nil_append]
  · rfl

/-- Trimming stops at a solid part of the text. -/
theorem trimWhile_append_solid (h : Solid p core) :
    trimWhile p (front ++ (core ++ back)) =
      front.dropWhile p ++ (core ++ dropEndWhile p back) := by
  have hreverse : ((front.dropWhile p ++ (core ++ back)).reverse).dropWhile p =
      back.reverse.dropWhile p ++ (core.reverse ++ (front.dropWhile p).reverse) := by
    rw [List.reverse_append, List.reverse_append, List.append_assoc,
      dropWhile_append_solid h.reverse]
  rw [trimWhile, dropWhile_append_solid h, dropEndWhile, hreverse, dropEndWhile]
  simp only [List.reverse_append, List.reverse_reverse, List.append_assoc]

theorem Solid.trimWhile_eq (h : Solid p core) : trimWhile p core = core := by
  have := @trimWhile_append_solid p core [] [] h
  simpa [dropEndWhile] using this

/-- What trimming takes off. -/
theorem exists_trimWhile (p : Char → Bool) (text : List Char) :
    ∃ front back, text = front ++ (trimWhile p text ++ back) ∧ (∀ c ∈ front, p c = true) ∧
      ∀ c ∈ back, p c = true := by
  refine ⟨text.takeWhile p, ((text.dropWhile p).reverse.takeWhile p).reverse, ?_, ?_, ?_⟩
  · rw [trimWhile, dropEndWhile, ← List.reverse_append, List.takeWhile_append_dropWhile,
      List.reverse_reverse, List.takeWhile_append_dropWhile]
  · exact fun c hc => List.mem_takeWhile_imp hc
  · exact fun c hc => List.mem_takeWhile_imp (List.mem_reverse.1 hc)

theorem trimWhile_eq_nil_iff : trimWhile p text = [] ↔ ∀ c ∈ text, p c = true := by
  rw [trimWhile, dropEndWhile_eq, List.rdropWhile_eq_nil_iff]
  constructor
  · intro h
    by_contra hall
    have hne : text.dropWhile p ≠ [] := mt List.dropWhile_eq_nil_iff.1 hall
    -- The first character that is left does not satisfy `p`.
    have hhead := List.head_dropWhile_not p hne
    rw [h _ (List.head_mem hne)] at hhead
    cases hhead
  · exact fun h c hc => h c ((List.dropWhile_sublist p).mem hc)

/-- What trimming leaves is solid, unless it is nothing. -/
theorem solid_trimWhile (h : trimWhile p text ≠ []) : Solid p (trimWhile p text) where
  ne_nil := h
  head := by
    intro c hc
    obtain ⟨rest, hrest⟩ : trimWhile p text <+: text.dropWhile p :=
      List.rdropWhile_prefix p _
    have hhead := List.head?_dropWhile_not p text
    rw [← hrest, List.head?_append_of_ne_nil _ h, hc] at hhead
    exact hhead
  last := by
    intro c hc
    have hlast := List.rdropWhile_last_not p (text.dropWhile p) h
    rw [List.getLast?_eq_some_getLast h] at hc
    obtain rfl := Option.some.inj hc
    exact eq_false_of_ne_true hlast

/-- Trimming twice is trimming once. -/
theorem trimWhile_trimWhile (p : Char → Bool) (text : List Char) :
    trimWhile p (trimWhile p text) = trimWhile p text := by
  by_cases hnil : trimWhile p text = []
  · rw [hnil]
    rfl
  · exact (solid_trimWhile hnil).trimWhile_eq

/-- Characters that satisfy `p` make no difference at the ends. -/
theorem trimWhile_append (hfront : ∀ c ∈ front, p c = true) (hback : ∀ c ∈ back, p c = true) :
    trimWhile p (front ++ (text ++ back)) = trimWhile p text := by
  obtain ⟨left, right, htext, hleft, hright⟩ := exists_trimWhile p text
  by_cases hnil : trimWhile p text = []
  · rw [hnil, trimWhile_eq_nil_iff]
    have htext := trimWhile_eq_nil_iff.1 hnil
    grind
  · have hcore := solid_trimWhile hnil
    conv_lhs => rw [htext]
    rw [List.append_assoc, List.append_assoc, ← List.append_assoc front,
      trimWhile_append_solid hcore, List.dropWhile_eq_nil_iff.2 (by grind), List.nil_append,
      dropEndWhile_eq, List.rdropWhile_eq_nil_iff.2 (by grind), List.append_nil]

theorem trimWhile_append_left (hfront : ∀ c ∈ front, p c = true) :
    trimWhile p (front ++ text) = trimWhile p text := by
  have := @trimWhile_append p front [] text hfront nofun
  rwa [List.append_nil] at this

theorem trimWhile_append_right (hback : ∀ c ∈ back, p c = true) :
    trimWhile p (text ++ back) = trimWhile p text :=
  @trimWhile_append p [] back text nofun hback

/-! ### Lines of a longer text -/

theorem lines_newline (text : List Char) : lines ('\n' :: text) = [] :: lines text := rfl

theorem lines_cons {c : Char} (hc : c ≠ '\n') {first : List Char} {below : List (List Char)}
    (h : lines text = first :: below) : lines (c :: text) = (c :: first) :: below := by
  rw [lines, splitOn, if_neg (by simpa using hc)]
  rw [lines] at h
  rw [h]

theorem exists_lines_eq (text : List Char) : ∃ first below, lines text = first :: below := by
  rw [lines, splitOn_eq]
  exact List.exists_cons_of_ne_nil (List.splitOn_ne_nil _ _)

/-- The last line of a text and the first line of the next one become one line. -/
theorem lines_append (text other : List Char) :
    ∃ above last first below, lines text = above ++ [last] ∧ lines other = first :: below ∧
      lines (text ++ other) = above ++ (last ++ first) :: below := by
  obtain ⟨first, below, hother⟩ := exists_lines_eq other
  induction text with
  | nil => exact ⟨[], [], first, below, rfl, hother, hother⟩
  | cons c rest ih =>
      obtain ⟨above, last, first, below, hlines, hother, happend⟩ := ih
      by_cases hc : c = '\n'
      · subst hc
        exact ⟨[] :: above, last, first, below, by rw [lines_newline, hlines, List.cons_append],
          hother, by rw [List.cons_append, lines_newline, happend, List.cons_append]⟩
      · cases above with
        | nil => exact ⟨[], c :: last, first, below, lines_cons hc hlines, hother,
            lines_cons hc happend⟩
        | cons line above => exact ⟨(c :: line) :: above, last, first, below, lines_cons hc hlines,
            hother, lines_cons hc happend⟩

theorem lines_unlines {pieces : List (List Char)} (hne : pieces ≠ [])
    (h : ∀ piece ∈ pieces, '\n' ∉ piece) : lines (unlines pieces) = pieces := by
  rw [lines, unlines, joinWith_eq, splitOn_eq]
  exact List.splitOn_intercalate _ h hne

/-- A line consists of characters of the text, and has no line end. -/
theorem of_mem_lines {line : List Char} (h : line ∈ lines text) :
    ∀ c ∈ line, c ∈ text ∧ c ≠ '\n' := by
  induction text generalizing line with
  | nil =>
      rw [List.mem_singleton.1 h]
      exact nofun
  | cons d rest ih =>
      intro c hc
      obtain ⟨first, below, hlines⟩ := exists_lines_eq rest
      have hrest : line ∈ lines rest → c ∈ d :: rest ∧ c ≠ '\n' := fun h =>
        (ih h c hc).imp_left (List.mem_cons_of_mem _)
      by_cases hd : d = '\n'
      · subst hd
        rw [lines_newline] at h
        rcases List.mem_cons.1 h with rfl | h
        · cases hc
        · exact hrest h
      · rw [lines_cons hd hlines] at h
        rcases List.mem_cons.1 h with rfl | h
        · rcases List.mem_cons.1 hc with rfl | hc
          · exact ⟨List.mem_cons_self, hd⟩
          · exact (ih (hlines ▸ List.mem_cons_self) c hc).imp_left (List.mem_cons_of_mem _)
        · exact hrest (hlines ▸ List.mem_cons_of_mem _ h)

theorem unlines_cons (piece : List Char) {pieces : List (List Char)} (h : pieces ≠ []) :
    unlines (piece :: pieces) = piece ++ '\n' :: unlines pieces := by
  obtain ⟨next, rest, rfl⟩ := List.exists_cons_of_ne_nil h
  rfl

/-! ### Texts without blanks next to line breaks -/

/-- What is left of lines: those that are not blank, without the blanks at their ends. -/
def trimmed (lines : List (List Char)) : List (List Char) :=
  (lines.map (trimWhile isBlank)).filter (!·.isEmpty)

/-- The text without the blanks next to its line breaks. -/
def flush (text : List Char) : List Char := unlines (trimmed (lines text))

theorem trimmed_append (above below : List (List Char)) :
    trimmed (above ++ below) = trimmed above ++ trimmed below := by
  rw [trimmed, List.map_append, List.filter_append]
  rfl

theorem trimmed_cons_of_blank {line : List Char} (h : trimWhile isBlank line = [])
    (below : List (List Char)) : trimmed (line :: below) = trimmed below := by
  rw [trimmed, List.map_cons, List.filter_cons_of_neg (by rw [h]; decide)]
  rfl

theorem trimmed_cons_of_ne_nil {line : List Char} (h : trimWhile isBlank line ≠ [])
    (below : List (List Char)) :
    trimmed (line :: below) = trimWhile isBlank line :: trimmed below := by
  rw [trimmed, List.map_cons, List.filter_cons_of_pos (by simpa using h)]
  rfl

theorem trimmed_cons_congr {line line' : List Char}
    (h : trimWhile isBlank line = trimWhile isBlank line') {below below' : List (List Char)}
    (hbelow : trimmed below = trimmed below') :
    trimmed (line :: below) = trimmed (line' :: below') := by
  by_cases hnil : trimWhile isBlank line = []
  · rw [trimmed_cons_of_blank hnil, trimmed_cons_of_blank (h ▸ hnil), hbelow]
  · rw [trimmed_cons_of_ne_nil hnil, trimmed_cons_of_ne_nil (h ▸ hnil), h, hbelow]

theorem trimmed_eq_nil {pieces : List (List Char)}
    (h : ∀ piece ∈ pieces, ∀ c ∈ piece, isBlank c = true) : trimmed pieces = [] := by
  induction pieces with
  | nil => rfl
  | cons piece rest ih =>
      rw [trimmed_cons_of_blank (trimWhile_eq_nil_iff.2 (h _ List.mem_cons_self)),
        ih fun piece hpiece => h piece (List.mem_cons_of_mem _ hpiece)]

/-- Blanks at the ends of a text make no difference. -/
theorem flush_append_blank (hfront : ∀ c ∈ front, isBlank c = true)
    (hback : ∀ c ∈ back, isBlank c = true) : flush (front ++ (text ++ back)) = flush text := by
  obtain ⟨above, last, first, below, hlines, hrest, happend⟩ := lines_append front (text ++ back)
  obtain ⟨above', last', first', below', htext, hback', happend'⟩ := lines_append text back
  have hblank : ∀ {blanks : List Char}, (∀ c ∈ blanks, isBlank c = true) →
      ∀ line ∈ lines blanks, ∀ c ∈ line, isBlank c = true := fun h line hline c hc =>
    h c (of_mem_lines hline c hc).1
  have habove := hblank hfront
  have hbelow := hblank hback
  rw [hlines] at habove
  rw [hback'] at hbelow
  have hfirst : trimmed (lines (front ++ (text ++ back))) = trimmed (lines (text ++ back)) := by
    rw [happend, hrest, trimmed_append,
      trimmed_eq_nil fun line h => habove line (List.mem_append_left _ h), List.nil_append]
    refine trimmed_cons_congr ?_ rfl
    have hblanks := habove last (List.mem_append_right _ (List.mem_singleton_self _))
    exact trimWhile_append_left hblanks
  have hlast : trimmed (lines (text ++ back)) = trimmed (lines text) := by
    rw [happend', htext, trimmed_append, trimmed_append]
    congr 1
    have hblanks := trimmed_eq_nil fun line h => hbelow line (List.mem_cons_of_mem _ h)
    refine trimmed_cons_congr ?_ hblanks
    exact trimWhile_append_right (hbelow first' List.mem_cons_self)
  rw [flush, hfirst, hlast, flush]

theorem flush_trimWhile (h : ∀ c, p c = true → isBlank c = true) (text : List Char) :
    flush (trimWhile p text) = flush text := by
  obtain ⟨front, back, htext, hfront, hback⟩ := exists_trimWhile p text
  conv_rhs => rw [htext]
  exact (flush_append_blank (fun c hc => h c (hfront c hc)) fun c hc => h c (hback c hc)).symm

/-- Lines that only change at their ends. -/
theorem trimmed_map {change : List Char → List Char} {pieces : List (List Char)}
    (h : ∀ piece ∈ pieces, trimWhile isBlank (change piece) = trimWhile isBlank piece) :
    trimmed (pieces.map change) = trimmed pieces := by
  induction pieces with
  | nil => rfl
  | cons piece rest ih =>
      exact trimmed_cons_congr (h _ List.mem_cons_self)
        (ih fun piece hpiece => h piece (List.mem_cons_of_mem _ hpiece))

theorem flush_unlines {pieces : List (List Char)} (hne : pieces ≠ [])
    (h : ∀ piece ∈ pieces, '\n' ∉ piece) : flush (unlines pieces) = unlines (trimmed pieces) := by
  rw [flush, lines_unlines hne h]

/-! ### Parts of a text -/

theorem unlines_append_suffix (above below : List (List Char)) :
    unlines below <:+ unlines (above ++ below) := by
  induction above with
  | nil => exact List.suffix_rfl
  | cons line above ih =>
      by_cases hnil : above ++ below = []
      · rw [(List.append_eq_nil_iff.1 hnil).2]
        exact List.nil_suffix
      · rw [List.cons_append, unlines_cons _ hnil]
        exact (ih.trans (List.suffix_cons _ _)).trans (List.suffix_append _ _)

theorem unlines_prefix_of_concat {line longer : List Char} (h : line <+: longer)
    (above below : List (List Char)) :
    unlines (above ++ [line]) <+: unlines (above ++ longer :: below) := by
  induction above with
  | nil =>
      cases below with
      | nil => exact h
      | cons => exact h.trans (List.prefix_append _ _)
  | cons first above ih =>
      rw [List.cons_append, List.cons_append, unlines_cons _ (List.concat_ne_nil _ _),
        unlines_cons _ (List.append_ne_nil_of_right_ne_nil _ (List.cons_ne_nil _ _))]
      exact (List.prefix_append_right_inj _).2 (List.cons_prefix_cons.2 ⟨rfl, ih⟩)

theorem unlines_prefix_append (above below : List (List Char)) :
    unlines above <+: unlines (above ++ below) := by
  rcases List.eq_nil_or_concat above with rfl | ⟨above, line, rfl⟩
  · exact List.nil_prefix
  · rw [List.concat_eq_append, List.append_assoc, List.singleton_append]
    exact unlines_prefix_of_concat List.prefix_rfl above below

/-- A longer text in front adds lines, and adds to the first line. -/
theorem flush_suffix (text other : List Char) : flush other <:+: flush (text ++ other) := by
  obtain ⟨above, last, first, below, hlines, hother, happend⟩ := lines_append text other
  rw [flush, flush, happend, hother, trimmed_append]
  by_cases hnil : trimWhile isBlank first = []
  · rw [trimmed_cons_of_blank hnil, ← List.singleton_append, trimmed_append, ← List.append_assoc]
    exact (unlines_append_suffix _ _).isInfix
  · have hsolid := solid_trimWhile hnil
    obtain ⟨left, right, hfirst, hleft, hright⟩ := exists_trimWhile isBlank first
    have hjoined : trimWhile isBlank (last ++ first) =
        (last ++ left).dropWhile isBlank ++ trimWhile isBlank first := by
      conv_lhs => rw [hfirst]
      rw [← List.append_assoc, trimWhile_append_solid hsolid, dropEndWhile_eq,
        List.rdropWhile_eq_nil_iff.2 hright, List.append_nil]
    have hne : trimWhile isBlank (last ++ first) ≠ [] := by
      rw [hjoined]
      exact List.append_ne_nil_of_right_ne_nil _ hnil
    rw [trimmed_cons_of_ne_nil hnil, trimmed_cons_of_ne_nil hne, hjoined]
    refine List.IsInfix.trans ?_ (unlines_append_suffix _ _).isInfix
    cases trimmed below with
    | nil => exact (List.suffix_append _ _).isInfix
    | cons next rest =>
        rw [unlines_cons _ (List.cons_ne_nil _ _), unlines_cons _ (List.cons_ne_nil _ _),
          List.append_assoc]
        exact (List.suffix_append _ _).isInfix

/-- A longer text behind adds lines, and adds to the last line. -/
theorem flush_prefix_append (text other : List Char) : flush text <:+: flush (text ++ other) := by
  obtain ⟨above, last, first, below, hlines, hother, happend⟩ := lines_append text other
  rw [flush, flush, happend, hlines, trimmed_append, trimmed_append]
  by_cases hnil : trimWhile isBlank last = []
  · rw [trimmed_cons_of_blank hnil, show trimmed [] = [] from rfl, List.append_nil]
    exact (unlines_prefix_append _ _).isInfix
  · have hsolid := solid_trimWhile hnil
    obtain ⟨left, right, hlast, hleft, hright⟩ := exists_trimWhile isBlank last
    have hjoined : trimWhile isBlank (last ++ first) =
        trimWhile isBlank last ++ dropEndWhile isBlank (right ++ first) := by
      conv_lhs => rw [hlast]
      rw [List.append_assoc, List.append_assoc, trimWhile_append_solid hsolid,
        List.dropWhile_eq_nil_iff.2 hleft, List.nil_append]
    have hne : trimWhile isBlank (last ++ first) ≠ [] := by
      rw [hjoined]
      exact List.append_ne_nil_of_left_ne_nil hnil _
    rw [trimmed_cons_of_ne_nil hnil, trimmed_cons_of_ne_nil hne, hjoined]
    exact (unlines_prefix_of_concat (List.prefix_append _ _) _ _).isInfix

/-- A part of a text is a part of it without the blanks next to line breaks, too. -/
theorem infix_flush (h : text <:+: other) : flush text <:+: flush other := by
  obtain ⟨front, back, rfl⟩ := h
  exact (flush_suffix front text).trans (flush_prefix_append (front ++ text) back)

theorem infix_unlines {line : List Char} {pieces : List (List Char)} (h : line ∈ pieces) :
    line <:+: unlines pieces := by
  obtain ⟨above, below, rfl⟩ := List.append_of_mem h
  rw [← List.singleton_append]
  exact (unlines_prefix_append [line] below).isInfix.trans (unlines_append_suffix _ _).isInfix

theorem infix_of_mem_lines {line : List Char} (h : line ∈ lines text) : line <:+: text := by
  have := infix_unlines h
  rwa [unlines_lines] at this

theorem flush_eq_self (h : Solid isBlank text) (hline : '\n' ∉ text) : flush text = text := by
  have hlines : lines text = [text] := by
    rw [lines, splitOn_eq, List.splitOn_eq_singleton hline]
  have hne : trimWhile isBlank text ≠ [] := by
    rw [h.trimWhile_eq]
    exact h.ne_nil
  rw [flush, hlines, trimmed_cons_of_ne_nil hne, h.trimWhile_eq]
  rfl

/-- What lies within a line stands in a text exactly when it stands in what is flush of it. -/
theorem infix_of_flush_infix (h : Solid isBlank core) (hline : '\n' ∉ core)
    (hflush : flush core <:+: flush text) : core <:+: text := by
  rw [flush_eq_self h hline] at hflush
  obtain ⟨before, after, hflush⟩ := hflush
  rw [flush, List.append_assoc] at hflush
  obtain ⟨piece, hpiece, before', after', heq, -, -⟩ := exists_piece h.ne_nil hline hflush.symm
  obtain ⟨line, hmem, rfl⟩ := List.mem_map.1 (List.mem_filter.1 hpiece).1
  -- The trimmed line is a part of its line, which is a part of the text.
  have hcore : core <:+: trimWhile isBlank line := ⟨before', after', by rw [heq, List.append_assoc]⟩
  obtain ⟨left, right, hline, -, -⟩ := exists_trimWhile isBlank line
  have htrim : trimWhile isBlank line <:+: line :=
    ⟨left, right, by rw [List.append_assoc, ← hline]⟩
  exact hcore.trans (htrim.trans (infix_of_mem_lines hmem))

/-! ### What cleaning up keeps -/

theorem isBlank_of_isMarginChar {c : Char} (h : isMarginChar c = true) : isBlank c = true := by
  rw [isMarginChar, Bool.or_eq_true, beq_iff_eq, beq_iff_eq] at h
  rcases h with rfl | rfl <;> decide

theorem trimWhile_cons {c : Char} (h : p c = true) (rest : List Char) :
    trimWhile p (c :: rest) = trimWhile p rest :=
  trimWhile_append_left (List.forall_mem_singleton.2 h)

/-- A change of every line that only adds or removes blanks at its ends. -/
theorem flush_map_lines {change : List Char → List Char}
    (htrim : ∀ line, trimWhile isBlank (change line) = trimWhile isBlank line)
    (hline : ∀ line, '\n' ∈ change line → '\n' ∈ line) (text : List Char) :
    flush (unlines ((lines text).map change)) = flush text := by
  obtain ⟨first, below, hlines⟩ := exists_lines_eq text
  rw [flush_unlines, trimmed_map fun line _ => htrim line, flush]
  · rw [hlines]
    exact List.cons_ne_nil _ _
  · intro piece hpiece hmem
    obtain ⟨line, hl, rfl⟩ := List.mem_map.1 hpiece
    exact (of_mem_lines hl _ (hline line hmem)).2 rfl

theorem flush_indent (text : String) (level : Nat) :
    flush (indent text level).toList = flush text.toList := by
  have hmargin : ∀ c ∈ (List.replicate level indentStep.toList).flatten, c = ' ' := by
    intro c hc
    obtain ⟨step, hstep, hc⟩ := List.mem_flatten.1 hc
    rw [List.eq_of_mem_replicate hstep] at hc
    have hspaces : indentStep.toList = [' ', ' '] := by decide
    rw [hspaces] at hc
    simpa using hc
  rw [indent, String.toList_ofList]
  refine flush_map_lines (fun line => ?_) (fun line hmem => ?_) text.toList
  · split
    · rename_i hblank
      rw [isBlankLine, List.all_eq_true] at hblank
      rw [trimWhile_eq_nil_iff.2 hblank]
      rfl
    · have hblanks : ∀ c ∈ (List.replicate level indentStep.toList).flatten, isBlank c = true :=
        fun c hc => by rw [hmargin c hc]; decide
      exact trimWhile_append_left hblanks
  · split at hmem
    · cases hmem
    · refine (List.mem_append.1 hmem).resolve_left fun h => ?_
      have := hmargin _ h
      revert this
      decide

/-- Of consecutive blank lines, only blank ones are dropped. -/
theorem trimmed_squeeze (previousBlank : Bool) (pieces : List (List Char)) :
    trimmed (squeeze previousBlank pieces) = trimmed pieces := by
  fun_induction squeeze previousBlank pieces with
  | case1 => rfl
  | case2 previousBlank line rest h ih =>
      have hblank := List.all_eq_true.1 (Bool.and_eq_true_iff.1 h).1
      rw [ih, trimmed_cons_of_blank (trimWhile_eq_nil_iff.2 hblank)]
  | case3 previousBlank line rest h ih => exact trimmed_cons_congr rfl ih

theorem squeeze_sublist (previousBlank : Bool) (pieces : List (List Char)) :
    (squeeze previousBlank pieces).Sublist pieces := by
  fun_induction squeeze previousBlank pieces with
  | case1 => exact List.Sublist.refl _
  | case2 previousBlank line rest h ih => exact ih.cons _
  | case3 previousBlank line rest h ih => exact ih.cons_cons _

theorem flush_tidy (text : String) : flush (tidy text).toList = flush text.toList := by
  have hends : flush (trimWhile (· == '\n') text.toList) = flush text.toList :=
    flush_trimWhile (fun c hc => by rw [beq_iff_eq.1 hc]; decide) _
  rw [tidy, String.toList_ofList, flush_trimWhile fun _ => id, ← hends]
  generalize trimWhile (· == '\n') text.toList = body
  obtain ⟨first, below, hlines⟩ := exists_lines_eq body
  rw [flush_unlines, trimmed_map, trimmed_squeeze, flush]
  · intro line _
    have hline := List.rdropWhile_append_rtakeWhile (p := isBlank) (l := line)
    conv_rhs => rw [← hline]
    exact (trimWhile_append_right fun c hc => List.mem_rtakeWhile_imp hc).symm
  · rw [hlines, squeeze, Bool.and_false, if_neg Bool.false_ne_true]
    exact List.cons_ne_nil _ _
  · intro piece hpiece hmem
    obtain ⟨line, hline, rfl⟩ := List.mem_map.1 hpiece
    have hbody := (squeeze_sublist false _).mem hline
    exact (of_mem_lines hbody _ ((List.rdropWhile_prefix isBlank _).mem hmem)).2 rfl

theorem trimWhile_expandMargin (column : Nat) (line : List Char) :
    trimWhile isBlank (expandMargin column line) = trimWhile isBlank line := by
  fun_induction expandMargin column line with
  | case1 column rest width ih =>
      have hspaces : ∀ c ∈ List.replicate width ' ', isBlank c = true := fun c hc => by
        rw [List.eq_of_mem_replicate hc]
        decide
      rw [trimWhile_append_left hspaces, ih, trimWhile_cons (by decide)]
  | case2 column rest ih => rw [trimWhile_cons (by decide), ih, trimWhile_cons (by decide)]
  | case3 => rfl

theorem mem_of_mem_expandMargin {c : Char} (hc : c ≠ ' ') (column : Nat) (line : List Char)
    (h : c ∈ expandMargin column line) : c ∈ line := by
  fun_induction expandMargin column line with
  | case1 column rest width ih =>
      rcases List.mem_append.1 h with h | h
      · exact absurd (List.eq_of_mem_replicate h) hc
      · exact List.mem_cons_of_mem _ (ih h)
  | case2 column rest ih =>
      rcases List.mem_cons.1 h with rfl | h
      · exact absurd rfl hc
      · exact List.mem_cons_of_mem _ (ih h)
  | case3 => exact h

theorem prefix_of_commonStart (text other : List Char) : commonStart text other <+: text := by
  fun_induction commonStart text other with
  | case1 a as b bs h ih => exact List.cons_prefix_cons.2 ⟨rfl, ih⟩
  | case2 => exact List.nil_prefix
  | case3 => exact List.nil_prefix

/-- Shared margins are made of blanks. -/
theorem isBlank_of_mem_sharedMargin {pieces : List (List Char)} {c : Char}
    (h : c ∈ sharedMargin pieces) : isBlank c = true := by
  rw [sharedMargin] at h
  split at h
  · cases h
  · rename_i first rest hmargins
    have hfold : ∀ (margins : List (List Char)) (start : List Char),
        margins.foldl commonStart start <+: start := by
      intro margins
      induction margins with
      | nil => exact fun start => List.prefix_rfl
      | cons margin margins ih => exact fun start => (ih _).trans (prefix_of_commonStart _ _)
    have hmem : first ∈ (pieces.filter (!·.all isMarginChar)).map (·.takeWhile isMarginChar) :=
      hmargins ▸ List.mem_cons_self
    obtain ⟨line, -, rfl⟩ := List.mem_map.1 hmem
    exact isBlank_of_isMarginChar (List.mem_takeWhile_imp ((hfold rest _).mem h))

theorem flush_dedent (text : List Char) : flush (dedent text) = flush text := by
  rw [dedent, List.map_map]
  have hmargin := @isBlank_of_mem_sharedMargin
    ((lines text).map fun line => if line.all isMarginChar then [] else line)
  generalize sharedMargin _ = margin at hmargin
  have hclear : ∀ line : List Char, trimWhile isBlank (if line.all isMarginChar then [] else line) =
      trimWhile isBlank line := by
    intro line
    split
    · rename_i h
      rw [trimWhile_eq_nil_iff.2 fun c hc => isBlank_of_isMarginChar (List.all_eq_true.1 h c hc)]
      rfl
    · rfl
  have hcut : ∀ line : List Char,
      trimWhile isBlank (if margin.isPrefixOf line then line.drop margin.length else line) =
        trimWhile isBlank line := by
    intro line
    split
    · rename_i hprefix
      obtain ⟨rest, rfl⟩ := List.isPrefixOf_iff_prefix.1 hprefix
      rw [List.drop_left]
      exact (trimWhile_append_left fun c hc => hmargin hc).symm
    · rfl
  refine flush_map_lines (fun line => ?_) (fun line hmem => ?_) text
  · rw [Function.comp_apply, hcut, hclear]
  · have hcleared : ∀ {c : Char}, c ∈ (if line.all isMarginChar then [] else line) → c ∈ line := by
      intro c hc
      split at hc
      · cases hc
      · exact hc
    dsimp only [Function.comp_apply] at hmem
    generalize (if line.all isMarginChar then [] else line) = cleared at hmem hcleared
    split at hmem
    · exact hcleared (List.mem_of_mem_drop hmem)
    · exact hcleared hmem

theorem flush_blockContent (text : String) :
    flush (blockContent text).toList = flush text.toList := by
  have hends : flush (trimWhile (· == '\n') text.toList) = flush text.toList :=
    flush_trimWhile (fun c hc => by rw [beq_iff_eq.1 hc]; decide) _
  rw [blockContent, String.toList_ofList, flush_trimWhile fun _ => id, flush_dedent,
    flush_map_lines (trimWhile_expandMargin 0), hends]
  exact fun line => mem_of_mem_expandMargin (by decide) 0 line

end RouteBinder.Text
