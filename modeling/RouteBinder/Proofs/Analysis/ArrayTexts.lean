import RouteBinder.Proofs.Analysis.TypeTexts

/-!
# RouteBinder.Proofs.Analysis.ArrayTexts

**Arrays from the texts of their elements.** An element that can be read in front of brackets needs no
parentheses (`readAt_array`). Any other one is written between parentheses, which could also be the parameters
of a function type: they are not, when the first token in them cannot be a parameter up to the comma or
parenthesis behind it (`Enclosable`, `readAt_enclosed`).
-/

namespace RouteBinder.Analysis

open Source Grammar Parse TypeExpr

variable {inner : Inner} {boundary : Boundary} {cursor : Cursor} {text rest blanks : List Char}
  {type element : TypeExpr} {c : Char}

/-! ### Brackets -/

/-- Brackets behind an item. -/
theorem brackets_start (item : Item) (rest : List Char) :
    brackets inner boundary item (.start ('[' :: ']' :: rest)) =
      brackets inner boundary
        (.branch .arrayType [item, tokenItem [] .symbol "[", tokenItem [] .symbol "]"])
        (.start rest) := by
  refine chain_start ['[', ']'] ?_ (List.cons_ne_nil _ _)
  refine (goesOn_start spaces_nil (by decide) (by decide)).trans ?_
  refine (run_bind (mark_char spaces_nil (by decide) (by decide))).trans (run_orElse ?_)
  exact (run_bind (mark_char spaces_nil (by decide) (by decide))).trans rfl

theorem grows_bracketed (h : Grows inner boundary text ('[' :: ']' :: rest) type) :
    Grows inner boundary (text ++ ['[', ']']) rest (.array type) := by
  intro blanks hblanks
  obtain ⟨item, hunprefixed, hpostfix, hdenotes⟩ := h blanks hblanks
  rw [brackets_start] at hpostfix
  rw [List.append_assoc]
  refine ⟨_, hunprefixed, hpostfix, { isNamed := rfl, kind_ne := nofun, written := ?_ }⟩
  have hfirst : (((item :: [tokenItem [] .symbol "[", tokenItem [] .symbol "]"]).map
      Item.node |>.filter isConstruct).map writtenType).head? = some type := by
    rw [List.map_cons, List.filter_cons_of_pos hdenotes.isConstruct, List.map_cons,
      hdenotes.written]
    rfl
  obtain ⟨first, hfound, hwritten⟩ := exists_firstNamed? .arrayType hfirst
  rw [writtenType_arrayType rfl hfound, hwritten]

theorem readAt_array {text : String} (h : ReadAt .element text element) (site : Site) :
    ReadAt site (text ++ "[]") (.array element) := by
  have htext : (text ++ "[]").toList = text.toList ++ ['[', ']'] := String.toList_append
  obtain ⟨c, hhead, hc⟩ := h.begins
  have hbegins : Begins (text ++ "[]").toList := by
    refine ⟨c, ?_, hc⟩
    rw [htext, List.head?_append, hhead]
    rfl
  refine readAt_of_grows hbegins (fun depth boundary site rest hdepth _ => ?_) site
  rw [String.length_append] at hdepth
  rw [htext]
  exact grows_bracketed (h.reads depth boundary _ (steps_lt_of_le hdepth (Nat.le_add_right _ _))
    (.element rest))

/-! ### Parentheses -/

/-- A type in parentheses is a primary type, unless the parentheses are those of a function type. -/
theorem grows_parenthesized (h : Reads (inner.type .enclosed) text (')' :: rest) type)
    (hfunction : ∀ blanks, Spaces blanks →
      functionType inner boundary (.start (blanks ++ '(' :: (text ++ ')' :: rest))) = none) :
    Grows inner boundary ('(' :: (text ++ [')'])) rest type := by
  intro blanks hblanks
  obtain ⟨item, hitem, hdenotes⟩ := h [] spaces_nil
  rw [List.cons_append, List.append_assoc, List.singleton_append]
  have hfaces : Faces (.start (blanks ++ '(' :: (text ++ ')' :: rest))) '(' :=
    faces_start hblanks (by decide)
  have hparenthesized : parenthesizedType inner (.start (blanks ++ '(' :: (text ++ ')' :: rest))) =
      some (.branch .parenthesizedType
        [tokenItem blanks .symbol "(", item, tokenItem [] .symbol ")"], .start rest) := by
    refine (run_bind (mark_char hblanks (by decide) (by decide))).trans ?_
    refine (run_bind hitem).trans ?_
    exact (run_bind (mark_char spaces_nil (by decide) (by decide))).trans rfl
  refine ⟨_, ⟨hfunction blanks hblanks, ?_⟩, run_bind ((primaryType_mark hfaces (by simp)).trans
    (run_orElse hparenthesized)), { isNamed := rfl, kind_ne := nofun, written := ?_ }⟩
  · rw [nameAt_of_faces hfaces (by decide)]
    decide
  · have hfirst : ((([tokenItem blanks .symbol "(", item, tokenItem [] .symbol ")"]).map
        Item.node |>.filter isConstruct).map writtenType).head? = some type := by
      rw [List.map_cons, List.filter_cons_of_neg (by rw [isConstruct_tokenItem]; decide),
        List.map_cons, List.filter_cons_of_pos hdenotes.isConstruct, List.map_cons,
        hdenotes.written]
      rfl
    obtain ⟨first, hfound, hwritten⟩ := exists_firstNamed? .parenthesizedType hfirst
    rw [writtenType_parenthesizedType rfl hfound, hwritten]

/-- In front of brackets, parentheses around the text are not the parameters of a function type. -/
def Enclosable (text : List Char) : Prop :=
  ∀ depth boundary blanks rest, Spaces blanks → functionType (.ofDepth depth) boundary
    (.start (blanks ++ '(' :: (text ++ ')' :: '[' :: ']' :: rest))) = none

theorem readAt_enclosed {text : String} (h : ReadAt .whole text element)
    (henclosable : Enclosable text.toList) (site : Site) :
    ReadAt site ("(" ++ text ++ ")[]") (.array element) := by
  have htext : ("(" ++ text ++ ")[]").toList = '(' :: (text.toList ++ [')']) ++ ['[', ']'] := by
    rw [String.toList_append, String.toList_append, List.append_assoc]
    show '(' :: (text.toList ++ [')', '[', ']']) = '(' :: (text.toList ++ [')'] ++ ['[', ']'])
    rw [List.append_assoc]
    rfl
  have hbegins : Begins ("(" ++ text ++ ")[]").toList := by
    rw [htext]
    exact ⟨'(', rfl, by decide, by decide⟩
  refine readAt_of_grows hbegins (fun depth boundary site rest hdepth _ => ?_) site
  have hlength := congrArg List.length htext
  simp only [List.length_append, List.length_cons, List.length_nil, String.length_toList] at hlength
  cases depth with
  | zero => cases hdepth
  | succ depth =>
  have hinner : stepsPerCharacter * text.length < depth := by
    simp only [stepsPerCharacter] at hdepth ⊢
    omega
  rw [htext]
  refine grows_bracketed (grows_parenthesized ?_ fun blanks hblanks =>
    henclosable (depth + 1) boundary blanks rest hblanks)
  exact h.reads depth .enclosed _ hinner (.whole (.parenthesis _))

/-! ### No parameters -/

/-- Parentheses are no parameters when the first token in them begins none, or when the first parameter is
followed by neither a comma nor the closing parenthesis. -/
theorem formalParameters_refused_of_first {more : List Char} (hblanks : Spaces blanks)
    (h : parameter inner (.start more) = none ∧ mark ")" (.start more) = none ∨
      ∃ item next, parameter inner (.start more) = some (item, next) ∧ mark "," next = none ∧
        mark ")" next = none) :
    formalParameters inner (.start (blanks ++ '(' :: more)) = none := by
  refine run_bind_none ((run_bind (mark_char hblanks (by decide) (by decide))).trans ?_)
  rcases h with ⟨hfirst, hclosing⟩ | ⟨item, next, hfirst, hcomma, hclosing⟩
  · refine (run_bind (run_optional_none (run_bind_none hfirst))).trans ?_
    exact (run_bind (p := pure none) rfl).trans (run_bind_none hclosing)
  · have hparts : commaSeparated (parameter inner) (.start more) = some ([item], next) :=
      (run_bind hfirst).trans ((run_bind (run_many_none (run_bind_none hcomma))).trans rfl)
    refine (run_bind (run_optional hparts)).trans ?_
    exact (run_bind (run_optional_none hcomma)).trans (run_bind_none hclosing)

theorem enclosable_of_first (h : ∀ inner rest, let cursor := Cursor.start (text ++ ')' :: rest)
    parameter inner cursor = none ∧ mark ")" cursor = none ∨
      ∃ item next, parameter inner cursor = some (item, next) ∧ mark "," next = none ∧
        mark ")" next = none) : Enclosable text := by
  intro depth boundary blanks rest hblanks
  have hopening : Faces (.start (blanks ++ '(' :: (text ++ ')' :: '[' :: ']' :: rest))) '(' :=
    faces_start hblanks (by decide)
  refine functionType_refused ?_ hopening (by decide) (formalParameters_refused_of_first hblanks (h _ _))
  rw [nameAt_of_faces hopening (by decide)]
  decide

/-- Words that have a meaning of their own in front of a parameter. -/
def parameterWords : List String := "this" :: "override" :: "readonly" :: accessibilityWords

/-- A bar, a bracket, a dot or a sign that only types have is nothing that goes on behind a parameter. -/
theorem enclosable_of_word {word gap after : List Char} (hword : IsWord word)
    (hne : String.ofList word ∉ parameterWords) (hgap : Spaces gap)
    (hc : c ∈ ['|', '&', '[', '<', '.']) : Enclosable (word ++ (gap ++ c :: after)) := by
  refine enclosable_of_first fun inner rest => Or.inr ?_
  have hmark : BeginsToken c ∧ isNameChar c = false ∧ '?' ≠ c ∧ ':' ≠ c ∧ '=' ≠ c ∧ ',' ≠ c ∧ ')' ≠ c := by
    simp only [List.mem_cons, List.not_mem_nil, or_false] at hc
    rcases hc with rfl | rfl | rfl | rfl | rfl <;> decide
  obtain ⟨hbegins, hchar, hquestion, hcolon, hequals, hcomma, hclosing⟩ := hmark
  have hends : EndsName (gap ++ c :: (after ++ ')' :: rest)) := by
    rintro d hd
    cases gap with
    | nil => exact Option.some.inj hd ▸ hchar
    | cons blank gap =>
        rw [← Option.some.inj hd, hgap blank List.mem_cons_self]
        decide
  have hnext : Faces (.start (gap ++ c :: (after ++ ')' :: rest))) c := faces_start hgap hbegins
  obtain ⟨d, -, hfaces, hstart⟩ := faces_word spaces_nil hword (gap ++ c :: (after ++ ')' :: rest))
  have hname := nameAt_start spaces_nil hword hends
  have hbound : name .identifier (.start ([] ++ (word ++ (gap ++ c :: (after ++ ')' :: rest))))) =
      some (_, .start (gap ++ c :: (after ++ ')' :: rest))) := name_start spaces_nil hword hends
  rw [List.nil_append] at hfaces hname hbound
  rw [List.append_assoc, List.append_assoc, List.cons_append]
  generalize Cursor.start (word ++ (gap ++ c :: (after ++ ')' :: rest))) = cursor at *
  generalize Cursor.start (gap ++ c :: (after ++ ')' :: rest)) = next at *
  have hwords : ∀ {words : List String}, (∀ other ∈ words, other ∈ parameterWords) →
      String.ofList (nameAt cursor.rest) ∉ words := fun hwords hmem => hne (hwords _ (hname ▸ hmem))
  have hmodifier : ∀ {openings : String} {words : List String} {kind : Kind},
      (∀ other ∈ words, other ∈ parameterWords) →
        Parse.optional (modifier openings words kind) cursor = some (none, cursor) := fun hmem =>
    run_optional_none (modifier_refused (hwords hmem))
  have hrest : mark "..." cursor = none := by
    refine mark_refused hfaces (d := '.') (by decide) ?_
    rintro rfl
    exact absurd hstart (by decide)
  have hthis : keyword "this" cursor = none :=
    run_keyword_none fun heq => @hwords ["this"] (by decide) (heq ▸ List.mem_singleton_self _)
  have hpattern : parameterPattern inner cursor = some (_, next) :=
    (run_orElse_none (run_bind_none hrest)).trans
      ((run_orElse_none (run_bind_none hthis)).trans (run_orElse hbound))
  have hinitializer : initializer inner .enclosed next = none := by
    refine (run_bind rfl).trans ((run_bind rfl).trans (require_refused (run_bind_none ?_)))
    exact mark_refused hnext (d := '=') (by decide) hequals
  have hat : d ≠ '@' := by
    rintro rfl
    exact absurd hstart (by decide)
  refine ⟨.branch .requiredParameter [(tokenItem [] .identifier (String.ofList word)).as .pattern],
    next, ?_, mark_refused hnext (d := ',') (by decide) hcomma, mark_refused hnext (d := ')') (by decide) hclosing⟩
  refine (run_bind (decorators_refused (mark_refused hfaces (d := '@') (by decide) (Ne.symm hat)))).trans ?_
  refine (run_bind (hmodifier (by decide))).trans ((run_bind (hmodifier (by decide))).trans ?_)
  refine (run_bind (hmodifier (by decide))).trans ((run_bind hpattern).trans ?_)
  refine (run_bind (run_optional_none (mark_refused hnext (d := '?') (by decide) hquestion))).trans ?_
  refine (run_bind (run_optional_none (run_bind_none
    (mark_refused hnext (d := ':') (by decide) hcolon)))).trans ?_
  exact (run_bind (run_optional_none hinitializer)).trans rfl

end RouteBinder.Analysis
