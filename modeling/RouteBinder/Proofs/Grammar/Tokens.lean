import RouteBinder.Proofs.Grammar.Parsers

/-!
# RouteBinder.Proofs.Grammar.Tokens

**Tokens at the front of a text.** A parser that has read a token stands at the start of what follows the
token, so a run is followed from text to text: at `Cursor.start text`, the next token begins, behind blanks
or without any. Its first character decides which parsers refuse it (`Faces`).
-/

namespace RouteBinder.Grammar

open Source Parse

variable {blanks token after rest : List Char} {c d : Char} {cursor : Cursor} {word : String}
  {words : List String} {kind : Kind}

/-! ### Where tokens begin -/

/-- A character that begins a token, and no comment. -/
structure BeginsToken (c : Char) : Prop where
  not_isBlank : isBlank c = false
  ne_slash : c ≠ '/'

instance (c : Char) : Decidable (BeginsToken c) :=
  decidable_of_iff (isBlank c = false ∧ c ≠ '/') ⟨fun h => ⟨h.1, h.2⟩, fun h => ⟨h.1, h.2⟩⟩

/-- Only spaces. -/
def Spaces (blanks : List Char) : Prop := ∀ b ∈ blanks, b = ' '

theorem spaces_nil : Spaces [] := nofun

theorem spaces_one : Spaces [' '] := List.forall_mem_singleton.2 rfl

theorem Spaces.isBlank (hblanks : Spaces blanks) : ∀ b ∈ blanks, isBlank b = true := fun b hb => by
  rw [hblanks b hb]
  decide

/-- The next token at the cursor begins with the character. -/
def Faces (cursor : Cursor) (c : Char) : Prop := ∃ rest, cursor.rest = c :: rest

theorem rest_start (hblanks : Spaces blanks) (hc : BeginsToken c) :
    (Cursor.start (blanks ++ c :: rest)).rest = c :: rest := by
  rw [Cursor.start, split_append blanks hblanks.isBlank hc.not_isBlank hc.ne_slash]

theorem faces_start (hblanks : Spaces blanks) (hc : BeginsToken c) :
    Faces (.start (blanks ++ c :: rest)) c := ⟨rest, rest_start hblanks hc⟩

theorem faces (rest : List Char) (hc : BeginsToken c) : Faces (.start (c :: rest)) c :=
  faces_start spaces_nil hc

theorem faces_space (rest : List Char) (hc : BeginsToken c) : Faces (.start (' ' :: c :: rest)) c :=
  faces_start spaces_one hc

/-- A leaf behind blanks. -/
def tokenItem (blanks : List Char) (kind : Kind) (text : String) : Item :=
  { lead := { gap := String.ofList blanks }, node := .leaf {} kind text }

/-- Behind a token, the next one begins at the start of what is left. -/
theorem take_start (hblanks : Spaces blanks) (hc : BeginsToken c) (htoken : token.head? = some c) :
    take kind token.length (.start (blanks ++ (token ++ rest))) =
      some (tokenItem blanks kind (String.ofList token), .start rest) := by
  obtain ⟨token, rfl⟩ : ∃ more, token = c :: more := by
    cases token with
    | nil => cases htoken
    | cons first more => exact ⟨more, by rw [Option.some.inj htoken]⟩
  have hleft : (blanks ++ (c :: token ++ rest)).length + 1 -
      ((c :: token).length + Lead.length { gap := String.ofList blanks }) = rest.length + 1 := by
    have hlead : Lead.length { gap := String.ofList blanks } = blanks.length := by
      rw [Lead.length, List.foldl_nil, String.length_ofList]
    rw [hlead]
    simp only [List.length_append]
    omega
  have hstart : Cursor.start (blanks ++ (c :: token ++ rest)) =
      { tail := blanks ++ (c :: token ++ rest), lead := { gap := String.ofList blanks },
        rest := c :: token ++ rest, left := (blanks ++ (c :: token ++ rest)).length + 1 } := by
    rw [Cursor.start, List.cons_append, split_append blanks hblanks.isBlank hc.not_isBlank hc.ne_slash]
  rw [take, hstart]
  dsimp only
  rw [List.take_left, List.drop_left, Cursor.past, hleft]
  rfl

/-! ### Marks -/

theorem mark_start (hblanks : Spaces blanks) (hword : word.toList = token) (hc : BeginsToken c)
    (htoken : token.head? = some c) :
    mark word (.start (blanks ++ (token ++ rest))) =
      some (tokenItem blanks .symbol word, .start rest) := by
  subst hword
  have hrest : word.toList.isPrefixOf
      (Cursor.start (blanks ++ (word.toList ++ rest))).rest = true := by
    obtain ⟨more, hmore⟩ : ∃ more, word.toList = c :: more := by
      cases htext : word.toList with
      | nil =>
          rw [htext] at htoken
          cases htoken
      | cons first more =>
          rw [htext] at htoken
          exact ⟨more, by rw [Option.some.inj htoken]⟩
    rw [hmore, List.cons_append, rest_start hblanks hc, ← List.cons_append]
    exact List.isPrefixOf_iff_prefix.2 (List.prefix_append _ _)
  rw [run_mark hrest, ← String.length_toList, take_start hblanks hc htoken, String.ofList_toList]

/-- A mark of one character. -/
theorem mark_char (hblanks : Spaces blanks) (hword : word.toList = [c]) (hc : BeginsToken c) :
    mark word (.start (blanks ++ c :: rest)) =
      some (tokenItem blanks .symbol word, .start rest) := mark_start hblanks hword hc rfl

theorem mark_refused (h : Faces cursor c) (hword : word.toList.head? = some d) (hne : d ≠ c) :
    mark word cursor = none := by
  obtain ⟨rest, hrest⟩ := h
  refine run_mark_none ?_
  rw [hrest]
  cases htext : word.toList with
  | nil =>
      rw [htext] at hword
      cases hword
  | cons first more =>
      rw [htext] at hword
      rw [List.isPrefixOf, Option.some.inj hword, beq_false_of_ne hne, Bool.false_and]

/-! ### Names -/

/-- The text is one name, or a keyword. -/
def IsWord (text : List Char) : Prop :=
  ∃ c more, text = c :: more ∧ isNameStart c = true ∧ ∀ d ∈ more, isNameChar d = true

instance : (text : List Char) → Decidable (IsWord text)
  | [] => isFalse nofun
  | c :: more =>
    decidable_of_iff (isNameStart c = true ∧ more.all isNameChar = true) <| by
      rw [List.all_eq_true]
      constructor
      · rintro ⟨hstart, hmore⟩
        exact ⟨c, more, rfl, hstart, hmore⟩
      · rintro ⟨_, _, heq, hstart, hmore⟩
        cases heq
        exact ⟨hstart, hmore⟩

/-- No name goes on here. -/
def EndsName (after : List Char) : Prop := ∀ c ∈ after.head?, isNameChar c = false

theorem beginsToken_of_isNameChar (h : isNameChar c = true) : BeginsToken c := by
  rw [isNameChar, Bool.not_eq_true', Bool.or_eq_false_iff, Bool.or_eq_false_iff] at h
  refine ⟨h.1.2, ?_⟩
  rintro rfl
  exact absurd h.2 (by decide)

theorem beginsToken_of_isNameStart (h : isNameStart c = true) : BeginsToken c :=
  beginsToken_of_isNameChar (Bool.and_eq_true_iff.1 h).1

theorem nameAt_word (hword : IsWord token) (hafter : EndsName after) :
    nameAt (token ++ after) = token := by
  obtain ⟨c, more, rfl, hstart, hmore⟩ := hword
  have hend : after.takeWhile isNameChar = [] := by
    cases after with
    | nil => rfl
    | cons d rest => exact List.takeWhile_cons_of_neg (by rw [hafter d rfl]; decide)
  rw [List.cons_append, nameAt, if_pos hstart, List.takeWhile_append_of_pos hmore, hend,
    List.append_nil]

theorem IsWord.exists_head (hword : IsWord token) :
    ∃ c, token.head? = some c ∧ isNameStart c = true := by
  obtain ⟨c, more, rfl, hstart, -⟩ := hword
  exact ⟨c, rfl, hstart⟩

/-- The name at the cursor is the word. -/
theorem nameAt_start (hblanks : Spaces blanks) (hword : IsWord token) (hafter : EndsName after) :
    nameAt (Cursor.start (blanks ++ (token ++ after))).rest = token := by
  have hname := nameAt_word hword hafter
  obtain ⟨c, more, rfl, hstart, -⟩ := hword
  rwa [List.cons_append, rest_start hblanks (beginsToken_of_isNameStart hstart)]

theorem faces_word (hblanks : Spaces blanks) (hword : IsWord token) (after : List Char) :
    ∃ c, token.head? = some c ∧ Faces (.start (blanks ++ (token ++ after))) c ∧
      isNameStart c = true := by
  obtain ⟨c, more, rfl, hstart, -⟩ := hword
  exact ⟨c, rfl, faces_start hblanks (beginsToken_of_isNameStart hstart), hstart⟩

theorem keyword_start (hblanks : Spaces blanks) (hword : IsWord word.toList)
    (hafter : EndsName after) :
    keyword word (.start (blanks ++ (word.toList ++ after))) =
      some (tokenItem blanks .symbol word, .start after) := by
  obtain ⟨c, hhead, hstart⟩ := hword.exists_head
  have hname : String.ofList (nameAt (Cursor.start (blanks ++ (word.toList ++ after))).rest) =
      word := by
    rw [nameAt_start hblanks hword hafter, String.ofList_toList]
  rw [run_keyword hname, ← String.length_toList,
    take_start hblanks (beginsToken_of_isNameStart hstart) hhead, String.ofList_toList]

theorem name_start (hblanks : Spaces blanks) (hword : IsWord token) (hafter : EndsName after) :
    name kind (.start (blanks ++ (token ++ after))) =
      some (tokenItem blanks kind (String.ofList token), .start after) := by
  obtain ⟨c, hhead, hstart⟩ := hword.exists_head
  have hname := nameAt_start hblanks hword hafter
  have hne : nameAt (Cursor.start (blanks ++ (token ++ after))).rest ≠ [] := by
    rw [hname]
    rintro rfl
    cases hhead
  rw [run_name hne, hname, take_start hblanks (beginsToken_of_isNameStart hstart) hhead]

theorem keywordOf_start (hblanks : Spaces blanks) (hword : IsWord word.toList)
    (hafter : EndsName after) (hmem : word ∈ words) :
    keywordOf words (.start (blanks ++ (word.toList ++ after))) =
      some (tokenItem blanks .symbol word, .start after) := by
  obtain ⟨c, hhead, hstart⟩ := hword.exists_head
  have hname : String.ofList (nameAt (Cursor.start (blanks ++ (word.toList ++ after))).rest) =
      word := by
    rw [nameAt_start hblanks hword hafter, String.ofList_toList]
  have htake := @take_start blanks word.toList after c .symbol hblanks
    (beginsToken_of_isNameStart hstart) hhead
  rw [String.length_toList, String.ofList_toList] at htake
  rw [keywordOf, run_bind (p := nextName) rfl, hname, List.contains_iff_mem.2 hmem]
  exact (run_bind run_require_true).trans htake

/-- There is another word at the cursor. -/
theorem keyword_refused (h : nameAt cursor.rest = token) (hne : word.toList ≠ token) :
    keyword word cursor = none := by
  refine run_keyword_none fun heq => hne ?_
  rw [← heq, h, String.toList_ofList]

theorem nameAt_of_faces (h : Faces cursor c) (hc : isNameStart c = false) :
    nameAt cursor.rest = [] := by
  obtain ⟨rest, hrest⟩ := h
  rw [hrest, nameAt, if_neg (by rw [hc]; exact Bool.false_ne_true)]

theorem keyword_refused_of_faces (h : Faces cursor c) (hc : isNameStart c = false)
    (hword : word ≠ "") : keyword word cursor = none :=
  keyword_refused (nameAt_of_faces h hc) fun hnil => hword (String.toList_inj.1 hnil)

theorem keywordOf_refused (h : nameAt cursor.rest = token) (hne : String.ofList token ∉ words) :
    keywordOf words cursor = none := run_keywordOf_none (h ▸ hne)

theorem name_refused (h : nameAt cursor.rest = []) : name kind cursor = none := by
  rw [name, run_bind (p := nextName) rfl, h]
  rfl

/-! ### Literals -/

theorem literal_refused {measure : List Char → Option Nat} (h : measure cursor.rest = none) :
    literal kind measure cursor = none := by
  rw [literal, run_bind (p := ahead) rfl, h]
  rfl

theorem stringLength_eq_none (hc : c ≠ '\x27' ∧ c ≠ '\x22') : stringLength (c :: rest) = none := by
  rw [stringLength, beq_false_of_ne hc.1, beq_false_of_ne hc.2]
  rfl

theorem numberLength_eq_none (hdigit : c.isDigit = false) (hdot : c ≠ '.') :
    numberLength (c :: rest) = none := by
  have hrun : digitRun Char.isDigit (c :: rest) = 0 := by
    rw [digitRun, if_neg (by rw [hdigit]; exact Bool.false_ne_true)]
  have hzero : c ≠ '0' := by
    rintro rfl
    exact absurd hdigit (by decide)
  have hdecimal : decimalLength (c :: rest) = none := by
    rw [decimalLength, hrun, List.drop_zero]
    dsimp only
    rw [if_pos (beq_self_eq_true _)]
    split
    · rename_i heq
      cases heq
      exact absurd rfl hdot
    · rfl
  rw [numberLength]
  · exact hdecimal
  · intro mark more heq
    cases heq
    exact hzero rfl

/-- No literal begins like a name. -/
theorem literals_refused (h : Faces cursor c) (hc : isNameStart c = true) :
    stringLiteral cursor = none ∧ numberLiteral cursor = none := by
  obtain ⟨rest, hrest⟩ := h
  rw [isNameStart, Bool.and_eq_true, Bool.not_eq_true'] at hc
  refine ⟨literal_refused ?_, literal_refused ?_⟩
  · rw [hrest, stringLength_eq_none]
    constructor <;> rintro rfl <;> exact absurd hc.1 (by decide)
  · rw [hrest, numberLength_eq_none hc.2]
    rintro rfl
    exact absurd hc.1 (by decide)

theorem stringRest_plain {content : List Char}
    (h : ∀ c ∈ content, c ∉ ['\x27', '\\', '\n', '\r']) (rest : List Char) :
    stringRest '\x27' 0 (content ++ '\x27' :: rest) = some (content.length + 1) := by
  induction content with
  | nil => rfl
  | cons c content ih =>
      have hc := h c List.mem_cons_self
      simp only [List.mem_cons, List.not_mem_nil, or_false, not_or] at hc
      obtain ⟨hquote, hescape, hfeed, hreturn⟩ := hc
      rw [List.cons_append, stringRest, beq_false_of_ne hquote, beq_false_of_ne hescape,
        beq_false_of_ne hfeed, beq_false_of_ne hreturn,
        ih fun c hc => h c (List.mem_cons_of_mem _ hc)]
      rfl

/-- A text in quotes, without escapes. -/
theorem stringLiteral_quoted {content : List Char}
    (h : ∀ c ∈ content, c ∉ ['\x27', '\\', '\n', '\r']) (hblanks : Spaces blanks) :
    stringLiteral (.start (blanks ++ ('\x27' :: (content ++ ['\x27']) ++ rest))) =
      some (tokenItem blanks .string (String.ofList ('\x27' :: (content ++ ['\x27']))),
        .start rest) := by
  have hrest : (Cursor.start (blanks ++ ('\x27' :: (content ++ ['\x27']) ++ rest))).rest =
      '\x27' :: (content ++ ['\x27'] ++ rest) := rest_start hblanks (by decide)
  have hlength : stringLength ('\x27' :: (content ++ ['\x27'] ++ rest)) =
      some ('\x27' :: (content ++ ['\x27'])).length := by
    rw [stringLength, List.append_assoc, List.singleton_append, stringRest_plain h]
    simp
  refine (run_bind rfl).trans ?_
  rw [hrest, hlength]
  exact take_start hblanks (by decide) rfl

/-! ### Constructs with an opening of their own -/

variable {inner : Inner}

theorem typeParameters_refused (h : Faces cursor c) (hc : c ≠ '<') :
    typeParameters inner cursor = none :=
  run_bind_none (run_bind_none (mark_refused h (d := '<') (by decide) hc.symm))

theorem formalParameters_refused (h : Faces cursor c) (hc : c ≠ '(') :
    formalParameters inner cursor = none :=
  run_bind_none (run_bind_none (mark_refused h (d := '(') (by decide) hc.symm))

theorem modifier_refused {openings : String} {words : List String} {kind : Kind}
    (h : String.ofList (nameAt cursor.rest) ∉ words) : modifier openings words kind cursor = none :=
  run_bind_none (keywordOf_refused rfl h)

/-- Without a decorator in front, nothing is decorated. -/
theorem decorators_refused (h : mark "@" cursor = none) :
    decorators inner cursor = some ([], cursor) :=
  run_many_none (run_bind_none h)

/-! ### Going on -/

/-- What is refused here is refused under a condition. -/
theorem require_refused {condition : Bool} {α : Type} {p : Unit → Parse α} (h : p () cursor = none) :
    (require condition >>= p) cursor = none := by
  cases condition with
  | false => rfl
  | true => exact (run_bind run_require_true).trans h

/-- What is refused here is refused behind the question whether the construct goes on. -/
theorem goesOn_refused {boundary : Boundary} {α : Type} {p : Unit → Parse α}
    (h : p () cursor = none) : (goesOn boundary >>= p) cursor = none := by
  have hends : ∃ found, endsHere boundary cursor = some (found, cursor) := ⟨_, rfl⟩
  obtain ⟨found, hfound⟩ := hends
  have hgoes : goesOn boundary cursor = require (!found) cursor := run_bind hfound
  show (goesOn boundary cursor).bind _ = none
  rw [hgoes]
  exact require_refused h

/-- A mark within the line continues a construct. -/
theorem lineEnds_of_mark {operators : Bool} (hblanks : Spaces blanks)
    (hc : BeginsToken c) (hbrace : c ≠ '\x7d') :
    lineEnds operators (blanks ++ c :: rest) = false := by
  have hspaces : ∀ b ∈ blanks, (isBlank b && !isLineBreak b) = true := fun b hb => by
    rw [hblanks b hb]
    decide
  have hbreak : isLineBreak c = false := by
    have hblank := hc.not_isBlank
    rw [isLineBreak, Bool.or_eq_false_iff, Bool.or_eq_false_iff, beq_eq_false_iff_ne,
      beq_eq_false_iff_ne, beq_eq_false_iff_ne]
    refine ⟨⟨?_, fun h => ?_⟩, fun h => ?_⟩
    · rintro rfl
      exact absurd hblank (by decide)
    · rw [isBlank, h] at hblank
      exact absurd hblank (by decide)
    · rw [isBlank, h] at hblank
      exact absurd hblank (by decide)
  have hdrop : (blanks ++ c :: rest).dropWhile (fun c => isBlank c && !isLineBreak c) =
      c :: rest := by
    rw [List.dropWhile_append_of_pos hspaces,
      List.dropWhile_cons_of_neg (by rw [hc.not_isBlank, Bool.false_and]; decide)]
  rw [lineEnds]
  split
  · rename_i heq
    rw [hdrop] at heq
    cases heq
  · rename_i heq
    rw [hdrop] at heq
    cases heq
    exact absurd rfl hc.ne_slash
  · rename_i heq
    rw [hdrop] at heq
    cases heq
    exact absurd rfl hbrace
  · rename_i heq
    rw [hdrop] at heq
    cases heq
    rw [hbreak, if_neg Bool.false_ne_true]

theorem endsHere_start {boundary : Boundary} (hblanks : Spaces blanks)
    (hc : BeginsToken c) (hbrace : c ≠ '\x7d') :
    endsHere boundary (.start (blanks ++ c :: rest)) =
      some (false, .start (blanks ++ c :: rest)) := by
  cases boundary with
  | enclosed => rfl
  | type =>
      show some (lineEnds false (blanks ++ c :: rest), _) = _
      rw [lineEnds_of_mark hblanks hc hbrace]
  | expression =>
      show some (lineEnds true (blanks ++ c :: rest), _) = _
      rw [lineEnds_of_mark hblanks hc hbrace]

theorem goesOn_start {boundary : Boundary} {α : Type} {p : Unit → Parse α}
    (hblanks : Spaces blanks) (hc : BeginsToken c) (hbrace : c ≠ '\x7d') :
    (goesOn boundary >>= p) (.start (blanks ++ c :: rest)) =
      p () (.start (blanks ++ c :: rest)) :=
  run_bind (run_bind (endsHere_start hblanks hc hbrace))

/-- A semicolon ends a statement. -/
theorem semicolon_start {boundary : Boundary} (rest : List Char) :
    semicolon boundary (.start (';' :: rest)) = some ([tokenItem [] .symbol ";"], .start rest) := by
  refine (run_bind (endsHere_start spaces_nil (by decide) (by decide))).trans ?_
  exact (run_bind (mark_char spaces_nil (by decide) (by decide))).trans rfl

theorem chain_refused {α : Type} {grow : α → Parse α} {start : α} (h : grow start cursor = none) :
    chain grow start cursor = some (start, cursor) := by
  rw [chain, h]

/-- One step of a chain, which makes the text shorter. -/
theorem chain_start {α : Type} {grow : α → Parse α} {start grown : α} (token : List Char)
    (h : grow start (.start (token ++ rest)) = some (grown, .start rest)) (hne : token ≠ []) :
    chain grow start (.start (token ++ rest)) = chain grow grown (.start rest) := by
  have hleft : (Cursor.start rest).left < (Cursor.start (token ++ rest)).left := by
    have hlength := List.length_pos_iff.2 hne
    show rest.length + 1 < (token ++ rest).length + 1
    rw [List.length_append]
    omega
  rw [chain, h]
  exact if_pos hleft

/-- One step of a repetition. -/
theorem many_start {α : Type} {p : Parse α} {a : α} (token : List Char)
    (h : p (.start (token ++ rest)) = some (a, .start rest)) (hne : token ≠ []) :
    many p (.start (token ++ rest)) =
      (many p (.start rest)).map fun (found, last) => (a :: found, last) := by
  have hleft : (Cursor.start rest).left < (Cursor.start (token ++ rest)).left := by
    have hlength := List.length_pos_iff.2 hne
    show rest.length + 1 < (token ++ rest).length + 1
    rw [List.length_append]
    omega
  rw [many, h]
  exact if_pos hleft

end RouteBinder.Grammar
