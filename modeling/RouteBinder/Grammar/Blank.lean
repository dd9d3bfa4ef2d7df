/-!
# RouteBinder.Grammar.Blank

**What stands between tokens.** Blanks and comments separate tokens and carry no structure. This
module splits them off the front of the source (`Lead.split`) and decides where a line end closes a
statement that has no semicolon (`lineEnds`).

A statement may end without a semicolon at the end of the source, before a closing brace, at a
trailing comment, and at a line break unless the next line starts with something that can only
continue the statement. Which openings count as a continuation depends on what has just been read:
after an expression, a parenthesis or a bracket on the next line continues it (a call, a
subscript); after a type it does not.
-/

namespace RouteBinder.Grammar

/-! ### Characters -/

/-- Characters that separate tokens. -/
def isBlank (c : Char) : Bool :=
  (9 ≤ c.toNat && c.toNat ≤ 13) || c.toNat == 0x20 || c.toNat == 0x85 || c.toNat == 0xA0 ||
  c.toNat == 0x1680 || (0x2000 ≤ c.toNat && c.toNat ≤ 0x200B) || c.toNat == 0x2028 ||
  c.toNat == 0x2029 || c.toNat == 0x202F || c.toNat == 0x205F || c.toNat == 0x2060 ||
  c.toNat == 0x3000 || c.toNat == 0xFEFF

/-- Characters that end a line. -/
def isLineBreak (c : Char) : Bool :=
  c == '\n' || c.toNat == 0x2028 || c.toNat == 0x2029

/-- A comment up to the line end stops at a carriage return, too. -/
def endsLineComment (c : Char) : Bool := isLineBreak c || c == '\r'

/-- Punctuation that never occurs in a name. -/
def isPunctuation (c : Char) : Bool :=
  ":;`\"'@#.,|^&<=>+-*/\\%?!~()[]\x7b\x7d".toList.contains c

/-- Characters of a name after the first: everything that is neither blank, a control character
nor punctuation. Letters of every script are allowed. -/
def isNameChar (c : Char) : Bool :=
  !(c.toNat < 0x20 || isBlank c || isPunctuation c)

/-- A name starts with any of its characters except a digit. -/
def isNameStart (c : Char) : Bool := isNameChar c && !c.isDigit

/-! ### Comments -/

/-- The rest of a block comment up to and with its end mark, and what follows; `none` when the
comment is never closed. -/
def splitBlockComment : List Char → Option (List Char × List Char)
  | [] => none
  | '*' :: '/' :: rest => some (['*', '/'], rest)
  | c :: rest => (splitBlockComment rest).map fun (body, after) => (c :: body, after)

theorem length_splitBlockComment {source body after : List Char}
    (h : splitBlockComment source = some (body, after)) : after.length < source.length := by
  fun_induction splitBlockComment source generalizing body after with
  | case1 => simp at h
  | case2 rest =>
    obtain ⟨-, rfl⟩ := Prod.mk.inj (Option.some.inj h)
    simp only [List.length_cons]
    omega
  | case3 c rest _ ih =>
    obtain ⟨⟨inner, tail⟩, hi, he⟩ := Option.map_eq_some_iff.1 h
    obtain ⟨-, rfl⟩ := Prod.mk.inj he
    have := ih hi
    simp only [List.length_cons]
    omega

/-- Passing the blanks and the two characters that open a comment leaves less. -/
theorem length_afterOpening {source body : List Char} {mark : Char}
    (h : source.dropWhile isBlank = '/' :: mark :: body) : body.length + 2 ≤ source.length := by
  have drop := (List.dropWhile_suffix isBlank (l := source)).length_le
  rw [h] at drop
  simp only [List.length_cons] at drop
  omega

/-! ### Leads -/

/-- What stands in front of a token: comments, each with the blanks before it, and the blanks
after the last of them. -/
structure Lead where
  comments : List (String × String) := []
  gap : String := ""
  deriving Repr, Inhabited

/-- The number of characters of a lead. -/
def Lead.length (lead : Lead) : Nat :=
  lead.comments.foldl (fun n (gap, comment) => n + gap.length + comment.length) lead.gap.length

/-- Splits the blanks and comments off the source. -/
def Lead.split (source : List Char) : Lead × List Char :=
  let gap := String.ofList (source.takeWhile isBlank)
  match _h : source.dropWhile isBlank with
  | '/' :: '/' :: rest =>
    let (lead, after) := Lead.split (rest.dropWhile (!endsLineComment ·))
    let comment := String.ofList ('/' :: '/' :: rest.takeWhile (!endsLineComment ·))
    ({ lead with comments := (gap, comment) :: lead.comments }, after)
  | '/' :: '*' :: rest =>
    match _hc : splitBlockComment rest with
    | some (body, tail) =>
      let (lead, after) := Lead.split tail
      ({ lead with comments := (gap, String.ofList ('/' :: '*' :: body)) :: lead.comments }, after)
    | none => ({ gap }, '/' :: '*' :: rest)
  | rest => ({ gap }, rest)
termination_by source.length
decreasing_by
  · have := length_afterOpening _h
    have := (List.dropWhile_suffix (!endsLineComment ·) (l := rest)).length_le
    omega
  · have := length_afterOpening _h
    have := length_splitBlockComment _hc
    omega

/-! ### Statements without a semicolon -/

/-- What a scan over comments on the same line found. -/
inductive CommentScan where
  /-- It stopped before `rest`, having passed a line break or a comment up to the line end. -/
  | passedLine (rest : List Char)
  /-- It stopped right after a block comment that lies within the line. -/
  | sameLine (rest : List Char)
  /-- The slash opens no comment. -/
  | noComment

/-- The rest of a block comment and whether it contains a line break. -/
def skipBlockComment (sawBreak : Bool) : List Char → List Char × Bool
  | [] => ([], sawBreak)
  | '*' :: '/' :: rest => (rest, sawBreak)
  | c :: rest => skipBlockComment (sawBreak || isLineBreak c) rest

theorem length_skipBlockComment {source rest : List Char} {sawBreak found : Bool}
    (h : skipBlockComment sawBreak source = (rest, found)) : rest.length ≤ source.length := by
  fun_induction skipBlockComment sawBreak source generalizing rest found with
  | case1 => cases h; simp
  | case2 => cases h; simp only [List.length_cons]; omega
  | case3 _ _ _ _ ih => have := ih h; simp only [List.length_cons]; omega

/-- Passes blanks and comments. Unless `throughBlocks` is set, a block comment that is not directly
followed by another comment stops the scan. -/
def scanComments (throughBlocks : Bool) (sawBreak : Bool) (source : List Char) : CommentScan :=
  match _hs : source.dropWhile isBlank with
  | '/' :: '/' :: rest =>
    scanComments throughBlocks sawBreak (rest.dropWhile (!isLineBreak ·))
  | '/' :: '*' :: body =>
    match _hb : skipBlockComment sawBreak body with
    | (rest, found) =>
      if throughBlocks || rest.head? == some '/' then scanComments throughBlocks found rest
      else if found then .passedLine rest else .sameLine rest
  | '/' :: _ => .noComment
  | rest => .passedLine rest
termination_by source.length
decreasing_by
  · have := length_afterOpening _hs
    have := (List.dropWhile_suffix (!isLineBreak ·) (l := rest)).length_le
    omega
  · have := length_afterOpening _hs
    have := length_skipBlockComment _hb
    omega

theorem length_of_sameLine {throughBlocks sawBreak : Bool} {source rest : List Char}
    (h : scanComments throughBlocks sawBreak source = .sameLine rest) :
    rest.length < source.length := by
  fun_induction scanComments throughBlocks sawBreak source generalizing rest with
  | case1 _ _ body hs ih =>
    have := ih h
    have := length_afterOpening hs
    have := (List.dropWhile_suffix (!isLineBreak ·) (l := body)).length_le
    omega
  | case2 _ _ _ hs _ _ hb _ ih =>
    have := ih h
    have := length_afterOpening hs
    have := length_skipBlockComment hb
    omega
  | case4 _ _ _ hs _ _ hb =>
    have := length_afterOpening hs
    have := length_skipBlockComment hb
    cases h
    omega
  | case3 | case5 | case6 => cases h

/-- Does a line that starts like this start something new? `operators` says that an operator could
follow what has been read. -/
def opensNewLine (operators : Bool) : List Char → Bool
  | [] => true
  | '+' :: rest => rest.head? == some '+'
  | '-' :: rest => rest.head? == some '-'
  | '!' :: rest => rest.head? != some '='
  | 'i' :: 'n' :: rest =>
    if !((rest.head?.map Char.isAlpha).getD false) then false
    else if "stanceof".toList.isPrefixOf rest then
      ((rest.drop 8).head?.map Char.isAlpha).getD false
    else true
  | c :: _ =>
    if c == '(' || c == '[' then !operators
    else !("`,.;*%><=?^|&/:".toList.contains c)

/-- May a statement end here although no semicolon follows? `source` is what follows its last
token. -/
def lineEnds (operators : Bool) (source : List Char) : Bool :=
  match _h : source.dropWhile fun c => isBlank c && !isLineBreak c with
  | [] => true
  | '/' :: line =>
    match _hs : scanComments false false ('/' :: line) with
    | .noComment => false
    | .passedLine rest => rest.head? != some ',' && rest.head? != some '='
    | .sameLine rest => lineEnds operators rest
  | '\x7d' :: rest =>
    if (rest.dropWhile isBlank).head? == some ':' then operators else true
  | c :: rest =>
    if isLineBreak c then
      match scanComments true false rest with
      | .noComment => false
      | .passedLine next | .sameLine next => opensNewLine operators next
    else false
termination_by source.length
decreasing_by
  have drop := (List.dropWhile_suffix (fun c => isBlank c && !isLineBreak c) (l := source)).length_le
  have cut := length_of_sameLine _hs
  rw [_h] at drop
  omega

end RouteBinder.Grammar
