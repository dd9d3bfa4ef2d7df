import RouteBinder.Proofs.Analysis.NormalTypes

/-!
# RouteBinder.Proofs.Analysis.DistinctTexts

**Types that are told apart by their texts.** Two types of words, arrays, records and unions have the same text
only if they are the same type (`eq_of_render_eq`).

The texts are compared from the left, each with something behind it. A word ends in front of the first
character that continues no name, a record and a group of members close what they open, and a union ends
where no further bar follows. Only the brackets of an array stand behind what they belong to: how many of them
there are is known when the type in front of them has been read. So a type that is no union is compared
together with the brackets behind it, as the array that these make of it.
-/

namespace RouteBinder.TypeExpr

open Text

variable {s t element : TypeExpr} {fields : List Field} {members : List TypeExpr} {name : String}
  {rest rest' : List Char} {m n : Nat}

/-! ### Types without opaque texts -/

def primitiveNames : List String :=
  ["string", "number", "boolean", "bigint", "null", "undefined", "any", "never"]

/-- An identifier. The test for identifiers lets a line feed pass at the end, and there is none. -/
def IsFieldName (name : String) : Prop :=
  isIdentifier name = true ∧ ∀ c ∈ name.toList, isIdentifierChar c = true

instance (name : String) : Decidable (IsFieldName name) :=
  decidable_of_iff (isIdentifier name && name.toList.all isIdentifierChar) (by simp [IsFieldName])

/-- Types of words, arrays, records whose fields are identifiers, and unions with at least two members, none of
them a union or unknown. -/
inductive Spelled : TypeExpr → Prop where
  | unknown : Spelled .unknown
  | void : Spelled .void
  | primitive {name : String} (hname : name ∈ primitiveNames) : Spelled (.primitive name)
  | array {element : TypeExpr} (helement : Spelled element) : Spelled (.array element)
  | record {fields : List Field} (hnames : ∀ field ∈ fields, IsFieldName field.name)
      (htypes : ∀ field ∈ fields, Spelled field.type) : Spelled (.record fields)
  | union {members : List TypeExpr} (hlength : 2 ≤ members.length)
      (hmembers : ∀ member ∈ members, member.IsMember) (hspelled : ∀ member ∈ members, Spelled member) :
      Spelled (.union members)

/-! ### Texts as lists of characters -/

def chars (type : TypeExpr) : List Char := type.render.toList

def fieldChars (field : Field) : List Char := (renderField field).toList

/-- The fields after the first, each behind a semicolon. -/
def fieldsChars (fields : List Field) : List Char := (renderFields fields).toList

/-- The members after the first, each behind a bar. -/
def membersChars (members : List TypeExpr) : List Char := (renderMembers members).toList

/-- The brackets behind an array of so many levels. -/
def brackets : Nat → List Char
  | 0 => []
  | n + 1 => '[' :: ']' :: brackets n

/-- The array of so many levels. -/
def arrays : Nat → TypeExpr → TypeExpr
  | 0, type => type
  | n + 1, type => arrays n (.array type)

theorem members_union_ne (hlength : 2 ≤ members.length) :
    (TypeExpr.union members).members ≠ [.union members] := by
  intro h
  have hone := congrArg List.length h
  simp only [TypeExpr.members, List.length_singleton] at hone
  omega

theorem chars_array (h : element.members = [element]) (hspelled : Spelled element) :
    chars (.array element) ++ (brackets n ++ rest) = chars element ++ (brackets (n + 1) ++ rest) := by
  have hbare : mayNeedParentheses element = false := by
    cases hspelled with
    | union hlength => exact absurd h (members_union_ne hlength)
    | _ => rfl
  simp [chars, render, hbare, brackets]

theorem bar_mem_chars_union (hlength : 2 ≤ members.length) : '|' ∈ chars (.union members) := by
  match members with
  | first :: second :: more => simp [chars, render, renderMembers]

/-- A union is put in parentheses in front of brackets: it has a bar in its text. -/
theorem chars_group (hlength : 2 ≤ members.length) :
    chars (.array (.union members)) ++ (brackets n ++ rest) =
      '(' :: (chars (.union members) ++ (')' :: (brackets (n + 1) ++ rest))) := by
  have hplain : isPlain (render (.union members)) = false := by
    have hbar := bar_mem_chars_union hlength
    refine eq_false_of_ne_true ?_
    intro hplain
    simp only [isPlain, Bool.and_eq_true, List.all_eq_true] at hplain
    have hkept : '|' ∈ dropFinalLineFeed (render (.union members)).toList := by
      rw [dropFinalLineFeed]
      split
      · rename_i hlast
        obtain ⟨front, hfront⟩ := List.getLast?_eq_some_iff.1 (beq_iff_eq.1 hlast)
        rw [chars, hfront] at hbar
        rw [hfront, List.dropLast_concat]
        simpa using hbar
      · exact hbar
    exact absurd (hplain.2 '|' hkept) (by decide)
  simp [chars, render, mayNeedParentheses, hplain, brackets]

theorem chars_record_nil : chars (.record []) = ['\x7b', '\x7d'] := by
  simp [chars, render]

theorem chars_record_cons (field : Field) (fields : List Field) :
    chars (.record (field :: fields)) =
      '\x7b' :: ' ' :: (fieldChars field ++ (fieldsChars fields ++ [' ', '\x7d'])) := by
  simp [chars, render, fieldChars, fieldsChars]

theorem fieldsChars_cons (field : Field) (fields : List Field) :
    fieldsChars (field :: fields) = ';' :: ' ' :: (fieldChars field ++ fieldsChars fields) := by
  simp [fieldsChars, fieldChars, renderFields]

theorem chars_union_cons (first : TypeExpr) (members : List TypeExpr) :
    chars (.union (first :: members)) = chars first ++ membersChars members := by
  simp [chars, render, membersChars]

theorem membersChars_cons (first : TypeExpr) (members : List TypeExpr) :
    membersChars (first :: members) = ' ' :: '|' :: ' ' :: (chars first ++ membersChars members) := by
  simp [chars, membersChars, renderMembers]

theorem fieldChars_eq (field : Field) (hname : IsFieldName field.name) :
    fieldChars field =
      field.name.toList ++ ((if field.optional then ['?'] else []) ++ (':' :: ' ' :: chars field.type)) := by
  obtain ⟨name, type, optional⟩ := field
  cases optional <;> simp [fieldChars, renderField, renderName, hname.1, chars]

/-! ### Where a text ends -/

/-- No name and no array goes on here. -/
def Ends (rest : List Char) : Prop := ∀ c ∈ rest.head?, isIdentifierChar c = false ∧ c ≠ '['

/-- No union goes on here, either. -/
def Closed (rest : List Char) : Prop := Ends rest ∧ ¬ [' ', '|'] <+: rest

theorem ends_cons {c : Char} (h : isIdentifierChar c = false ∧ c ≠ '[') (rest : List Char) :
    Ends (c :: rest) := by
  intro d hd
  simp only [List.head?_cons, Option.mem_some_iff] at hd
  exact hd ▸ h

theorem ends_membersChars (h : Ends rest) (members : List TypeExpr) : Ends (membersChars members ++ rest) := by
  cases members with
  | nil => simpa [membersChars, renderMembers] using h
  | cons first more =>
      rw [membersChars_cons]
      exact ends_cons (by decide) _

theorem closed_nil : Closed [] := by
  simp [Closed, Ends]

theorem closed_parenthesis (rest : List Char) : Closed (')' :: rest) :=
  ⟨ends_cons (by decide) rest, by simp⟩

theorem closed_fieldsChars (fields : List Field) (rest : List Char) :
    Closed (fieldsChars fields ++ (' ' :: '\x7d' :: rest)) := by
  cases fields with
  | nil => exact ⟨ends_cons (by decide) _, by simp [fieldsChars, renderFields]⟩
  | cons field more =>
      rw [fieldsChars_cons]
      exact ⟨ends_cons (by decide) _, by simp⟩

/-- A bar goes on with a union. -/
theorem not_closed_membersChars (hne : members ≠ []) : ¬ Closed (membersChars members ++ rest) := by
  obtain ⟨first, more, rfl⟩ := List.exists_cons_of_ne_nil hne
  rw [membersChars_cons]
  intro h
  exact h.2 ⟨' ' :: (chars first ++ membersChars more ++ rest), by simp⟩

/-! ### Words and brackets -/

/-- Words end in front of the first character that continues no name. -/
theorem word_append_inj {word word' : List Char} (hword : ∀ c ∈ word, isIdentifierChar c = true)
    (hword' : ∀ c ∈ word', isIdentifierChar c = true) (hrest : ∀ c ∈ rest.head?, isIdentifierChar c = false)
    (hrest' : ∀ c ∈ rest'.head?, isIdentifierChar c = false) (h : word ++ rest = word' ++ rest') :
    word = word' ∧ rest = rest' := by
  have hnone : ∀ {text : List Char}, (∀ c ∈ text.head?, isIdentifierChar c = false) →
      text.takeWhile isIdentifierChar = [] := by
    intro text htext
    cases text with
    | nil => rfl
    | cons c text => rw [List.takeWhile_cons, htext c rfl, if_neg Bool.false_ne_true]
  have htaken := congrArg (List.takeWhile isIdentifierChar) h
  rw [List.takeWhile_append_of_pos hword, List.takeWhile_append_of_pos hword', hnone hrest, hnone hrest',
    List.append_nil, List.append_nil] at htaken
  subst htaken
  exact ⟨rfl, List.append_cancel_left h⟩

theorem head?_brackets (h : Ends rest) (n : Nat) :
    ∀ c ∈ (brackets n ++ rest).head?, isIdentifierChar c = false := by
  intro c hc
  cases n with
  | zero => exact (h c hc).1
  | succ n =>
      simp only [brackets, List.cons_append, List.head?_cons, Option.mem_some_iff] at hc
      exact hc ▸ by decide

theorem brackets_append_inj (hrest : Ends rest) (hrest' : Ends rest')
    (h : brackets m ++ rest = brackets n ++ rest') : m = n ∧ rest = rest' := by
  have hopen : ∀ {text : List Char}, Ends text → ∀ after, text ≠ '[' :: after := by
    intro text htext after heq
    exact (htext '[' (by rw [heq]; rfl)).2 rfl
  induction m generalizing n with
  | zero =>
      cases n with
      | zero => exact ⟨rfl, h⟩
      | succ n => exact absurd h (hopen hrest _)
  | succ m ih =>
      cases n with
      | zero => exact absurd h.symm (hopen hrest' _)
      | succ n =>
          simp only [brackets, List.cons_append, List.cons.injEq, true_and] at h
          obtain ⟨rfl, hend⟩ := ih h
          exact ⟨rfl, hend⟩

/-! ### Types without brackets behind them -/

def wordTypes : List TypeExpr := .unknown :: .void :: primitiveNames.map .primitive

theorem chars_wordType (h : s ∈ wordTypes) :
    chars s ≠ [] ∧ ∀ c ∈ chars s, isIdentifierChar c = true := by
  have hall : wordTypes.all (fun s => !(chars s).isEmpty && (chars s).all isIdentifierChar) = true := by
    decide
  have hs := List.all_eq_true.1 hall s h
  simpa using hs

theorem eq_of_chars_wordType (hs : s ∈ wordTypes) (ht : t ∈ wordTypes) (h : chars s = chars t) : s = t := by
  have hall : ∀ s ∈ wordTypes, ∀ t ∈ wordTypes, chars s = chars t → s = t := by decide
  exact hall s hs t ht h

/-- What stands in front of the brackets of an array: a word, a record, or a union in parentheses. -/
inductive Core : TypeExpr → Prop where
  | word {type : TypeExpr} (h : type ∈ wordTypes) : Core type
  | record (fields : List Field) : Core (.record fields)
  | group (members : List TypeExpr) : Core (.array (.union members))

/-- A type that is no union is an array of some level of its core. -/
theorem exists_core (h : Spelled t) (hlone : t.members = [t]) :
    ∃ level core, Core core ∧ Spelled core ∧ (∀ n, arrays n t = arrays (n + level) core) ∧
      ∀ n rest, chars t ++ (brackets n ++ rest) = chars core ++ (brackets (n + level) ++ rest) := by
  induction h with
  | unknown => exact ⟨0, _, .word (by decide), .unknown, fun _ => rfl, fun _ _ => rfl⟩
  | void => exact ⟨0, _, .word (by decide), .void, fun _ => rfl, fun _ _ => rfl⟩
  | primitive hname =>
      refine ⟨0, _, .word ?_, .primitive hname, fun _ => rfl, fun _ _ => rfl⟩
      exact List.mem_cons_of_mem _ (List.mem_cons_of_mem _ (List.mem_map_of_mem hname))
  | record hnames htypes =>
      exact ⟨0, _, .record _, .record hnames htypes, fun _ => rfl, fun _ _ => rfl⟩
  | union hlength => exact absurd hlone (members_union_ne hlength)
  | @array element helement ih =>
      by_cases hunion : element.members = [element]
      · obtain ⟨level, core, hcore, hspelled, harrays, hchars⟩ := ih hunion
        refine ⟨level + 1, core, hcore, hspelled, fun n => ?_, fun n rest => ?_⟩
        · show arrays (n + 1) element = _
          rw [harrays, Nat.add_assoc, Nat.add_comm 1]
        · rw [chars_array hunion helement, hchars, Nat.add_assoc, Nat.add_comm 1]
      · cases helement with
        | union hlength hmembers hspelled =>
            exact ⟨0, _, .group _, .array (.union hlength hmembers hspelled), fun _ => rfl, fun _ _ => rfl⟩
        | _ => exact absurd rfl hunion

/-! ### Texts that go on -/

/-- The type and the brackets behind it are told from those of another type. -/
def TellsArray (s : TypeExpr) : Prop :=
  ∀ ⦃t : TypeExpr⦄ ⦃m n : Nat⦄ ⦃rest rest' : List Char⦄, Spelled t → t.members = [t] → Ends rest →
    Ends rest' → chars s ++ (brackets m ++ rest) = chars t ++ (brackets n ++ rest') →
    arrays m s = arrays n t ∧ rest = rest'

/-- The type is told from another one. -/
def Tells (s : TypeExpr) : Prop :=
  ∀ ⦃t : TypeExpr⦄ ⦃rest rest' : List Char⦄, Spelled t → Closed rest → Closed rest' →
    chars s ++ rest = chars t ++ rest' → s = t ∧ rest = rest'

/-- Without brackets behind them. -/
theorem TellsArray.eq (h : TellsArray s) (ht : Spelled t) (hlone : t.members = [t]) (hrest : Ends rest)
    (hrest' : Ends rest') (heq : chars s ++ rest = chars t ++ rest') : s = t ∧ rest = rest' :=
  @h t 0 0 rest rest' ht hlone hrest hrest' heq

/-- It is enough to compare with the cores of arrays. -/
theorem tellsArray_of_core
    (h : ∀ ⦃core : TypeExpr⦄ ⦃m n : Nat⦄ ⦃rest rest' : List Char⦄, Core core → Spelled core → Ends rest →
      Ends rest' → chars s ++ (brackets m ++ rest) = chars core ++ (brackets n ++ rest') →
      s = core ∧ brackets m ++ rest = brackets n ++ rest') : TellsArray s := by
  intro t m n rest rest' ht hlone hrest hrest' heq
  obtain ⟨level, core, hcore, hspelled, harrays, hchars⟩ := exists_core ht hlone
  rw [hchars] at heq
  obtain ⟨rfl, hbrackets⟩ := h hcore hspelled hrest hrest' heq
  obtain ⟨rfl, hend⟩ := brackets_append_inj hrest hrest' hbrackets
  exact ⟨(harrays n).symm, hend⟩

theorem ne_of_isIdentifierChar {text after : List Char} {c : Char} (hne : text ≠ [])
    (h : ∀ c ∈ text, isIdentifierChar c = true) (hc : isIdentifierChar c = false) :
    text ++ rest ≠ c :: after := by
  obtain ⟨first, more, rfl⟩ := List.exists_cons_of_ne_nil hne
  intro heq
  have hfirst : first = c := (List.cons.inj heq).1
  rw [← hfirst, h first List.mem_cons_self] at hc
  cases hc

theorem exists_chars_record (fields : List Field) : ∃ after, chars (.record fields) = '\x7b' :: after := by
  cases fields with
  | nil => exact ⟨_, chars_record_nil⟩
  | cons field more => exact ⟨_, chars_record_cons field more⟩

theorem tellsArray_word (hs : s ∈ wordTypes) : TellsArray s := by
  obtain ⟨hne, hword⟩ := chars_wordType hs
  refine tellsArray_of_core ?_
  intro core m n rest rest' hcore hspelled hrest hrest' heq
  cases hcore with
  | word ht =>
      obtain ⟨hchars, hend⟩ := word_append_inj hword (chars_wordType ht).2 (head?_brackets hrest m)
        (head?_brackets hrest' n) heq
      exact ⟨eq_of_chars_wordType hs ht hchars, hend⟩
  | record fields =>
      obtain ⟨after, hafter⟩ := exists_chars_record fields
      rw [hafter] at heq
      exact absurd heq (ne_of_isIdentifierChar hne hword (by decide))
  | group members =>
      cases hspelled with
      | array hunion =>
          cases hunion with
          | union hlength =>
              rw [chars_group hlength] at heq
              exact absurd heq (ne_of_isIdentifierChar hne hword (by decide))

/-- Members of unions and parts of records are no unions, or stand by themselves. -/
theorem tells_of_tellsArray (h : TellsArray s) : Tells s := by
  intro t rest rest' ht hrest hrest' heq
  by_cases hunion : t.members = [t]
  · exact h.eq ht hunion hrest.1 hrest'.1 heq
  · -- the first member is told, and then the text would have to go on with a bar
    cases ht with
    | @union members hlength hmembers hspelled =>
        match members with
        | first :: second :: more =>
            rw [chars_union_cons, List.append_assoc] at heq
            obtain ⟨-, hend⟩ := h.eq (hspelled first List.mem_cons_self)
              (hmembers first List.mem_cons_self).members_eq hrest.1 (ends_membersChars hrest'.1 _) heq
            exact absurd (hend ▸ hrest) (not_closed_membersChars (List.cons_ne_nil _ _))
    | _ => exact absurd rfl hunion

/-! ### Records and groups -/

theorem fieldChars_append_inj {field field' : Field} (htells : Tells field.type)
    (hname : IsFieldName field.name) (hname' : IsFieldName field'.name) (hspelled : Spelled field'.type)
    (hrest : Closed rest) (hrest' : Closed rest')
    (h : fieldChars field ++ rest = fieldChars field' ++ rest') : field = field' ∧ rest = rest' := by
  obtain ⟨name, type, optional⟩ := field
  obtain ⟨name', type', optional'⟩ := field'
  have hmark : ∀ (optional : Bool) (type : TypeExpr) (rest : List Char),
      ∀ c ∈ ((if optional then ['?'] else []) ++ (':' :: ' ' :: (chars type ++ rest))).head?,
        isIdentifierChar c = false := by
    intro optional type rest c hc
    cases optional <;> simp at hc <;> exact hc ▸ by decide
  rw [fieldChars_eq _ hname, fieldChars_eq _ hname'] at h
  simp only [List.append_assoc, List.cons_append] at h
  obtain ⟨hnames, h⟩ := word_append_inj hname.2 hname'.2 (hmark optional type rest)
    (hmark optional' type' rest') h
  have hoptional : optional = optional' ∧ chars type ++ rest = chars type' ++ rest' := by
    cases optional <;> cases optional' <;> simp at h ⊢ <;> exact h
  obtain ⟨htypes, hend⟩ := htells hspelled hrest hrest' hoptional.2
  have hname : name = name' := String.toList_inj.1 hnames
  have htype : type = type' := htypes
  exact ⟨by rw [hname, htype, hoptional.1], hend⟩

/-- The fields behind the first, up to the brace. -/
theorem fieldsChars_append_inj (htells : ∀ field ∈ fields, Tells field.type)
    (hnames : ∀ field ∈ fields, IsFieldName field.name) {others : List Field}
    (hnames' : ∀ field ∈ others, IsFieldName field.name) (hspelled : ∀ field ∈ others, Spelled field.type)
    (h : fieldsChars fields ++ (' ' :: '\x7d' :: rest) = fieldsChars others ++ (' ' :: '\x7d' :: rest')) :
    fields = others ∧ rest = rest' := by
  have hnil : fieldsChars [] = [] := rfl
  induction fields generalizing others with
  | nil =>
      cases others with
      | nil => simpa [hnil] using h
      | cons other more => simp [hnil, fieldsChars_cons] at h
  | cons field fields ih =>
      cases others with
      | nil => simp [hnil, fieldsChars_cons] at h
      | cons other more =>
          rw [List.forall_mem_cons] at htells hnames hnames' hspelled
          simp only [fieldsChars_cons, List.cons_append, List.cons.injEq, List.append_assoc, true_and] at h
          obtain ⟨rfl, hmore⟩ := fieldChars_append_inj htells.1 hnames.1 hnames'.1 hspelled.1
            (closed_fieldsChars fields rest) (closed_fieldsChars more rest') h
          obtain ⟨rfl, hend⟩ := ih htells.2 hnames.2 hnames'.2 hspelled.2 hmore
          exact ⟨rfl, hend⟩

theorem tellsArray_record (htells : ∀ field ∈ fields, Tells field.type)
    (hnames : ∀ field ∈ fields, IsFieldName field.name) : TellsArray (.record fields) := by
  obtain ⟨after, hafter⟩ := exists_chars_record fields
  refine tellsArray_of_core ?_
  intro core m n rest rest' hcore hspelled hrest hrest' heq
  cases hcore with
  | word ht =>
      rw [hafter] at heq
      exact absurd heq.symm (ne_of_isIdentifierChar (chars_wordType ht).1 (chars_wordType ht).2 (by decide))
  | record others =>
      cases hspelled with
      | record hnames' hspelled =>
          cases fields with
          | nil =>
              cases others with
              | nil => exact ⟨rfl, List.append_cancel_left heq⟩
              | cons other more => simp [chars_record_nil, chars_record_cons] at heq
          | cons field fields =>
              cases others with
              | nil => simp [chars_record_nil, chars_record_cons] at heq
              | cons other more =>
                  rw [List.forall_mem_cons] at htells hnames hnames' hspelled
                  simp only [chars_record_cons, List.cons_append, List.cons.injEq, List.append_assoc,
                    true_and, List.nil_append] at heq
                  obtain ⟨rfl, hmore⟩ := fieldChars_append_inj htells.1 hnames.1 hnames'.1 hspelled.1
                    (closed_fieldsChars fields _) (closed_fieldsChars more _) heq
                  obtain ⟨rfl, hend⟩ := fieldsChars_append_inj htells.2 hnames.2 hnames'.2 hspelled.2 hmore
                  exact ⟨rfl, hend⟩
  | group members =>
      cases hspelled with
      | array hunion =>
          cases hunion with
          | union hlength =>
              rw [hafter, chars_group hlength] at heq
              simp at heq

theorem tellsArray_group (hlength : 2 ≤ members.length) (htells : Tells (.union members)) :
    TellsArray (.array (.union members)) := by
  refine tellsArray_of_core ?_
  intro core m n rest rest' hcore hspelled hrest hrest' heq
  rw [chars_group hlength] at heq
  cases hcore with
  | word ht =>
      exact absurd heq.symm (ne_of_isIdentifierChar (chars_wordType ht).1 (chars_wordType ht).2 (by decide))
  | record others =>
      obtain ⟨after, hafter⟩ := exists_chars_record others
      rw [hafter] at heq
      simp at heq
  | group others =>
      cases hspelled with
      | array hunion =>
          cases hunion with
          | @union _ hlength' hmembers hspelled =>
              rw [chars_group hlength'] at heq
              obtain ⟨hmembers, hend⟩ := htells (.union hlength' hmembers hspelled)
                (closed_parenthesis _) (closed_parenthesis _) (List.cons.inj heq).2
              simp only [brackets, List.cons_append, List.cons.injEq, true_and] at hend
              exact ⟨by rw [hmembers], hend⟩

/-! ### Unions -/

/-- The members behind the first, up to the end of the union. -/
theorem membersChars_append_inj (htells : ∀ member ∈ members, TellsArray member) {others : List TypeExpr}
    (hothers : ∀ other ∈ others, Spelled other ∧ other.members = [other]) (hrest : Closed rest)
    (hrest' : Closed rest') (h : membersChars members ++ rest = membersChars others ++ rest') :
    members = others ∧ rest = rest' := by
  have hnil : ∀ rest, membersChars [] ++ rest = rest := fun _ => rfl
  induction members generalizing others with
  | nil =>
      cases others with
      | nil => exact ⟨rfl, h⟩
      | cons other more =>
          rw [hnil] at h
          exact absurd (h ▸ hrest) (not_closed_membersChars (List.cons_ne_nil other more))
  | cons member members ih =>
      cases others with
      | nil =>
          rw [hnil] at h
          exact absurd (h ▸ hrest') (not_closed_membersChars (List.cons_ne_nil member members))
      | cons other more =>
          rw [List.forall_mem_cons] at htells hothers
          simp only [membersChars_cons, List.cons_append, List.cons.injEq, List.append_assoc, true_and] at h
          obtain ⟨rfl, hmore⟩ := htells.1.eq hothers.1.1 hothers.1.2 (ends_membersChars hrest.1 members)
            (ends_membersChars hrest'.1 more) h
          obtain ⟨rfl, hend⟩ := ih htells.2 hothers.2 hmore
          exact ⟨rfl, hend⟩

theorem tells_union (hlength : 2 ≤ members.length) (htells : ∀ member ∈ members, TellsArray member) :
    Tells (.union members) := by
  intro t rest rest' ht hrest hrest' heq
  match members with
  | first :: second :: more =>
      rw [chars_union_cons, List.append_assoc] at heq
      rw [List.forall_mem_cons] at htells
      by_cases hlone : t.members = [t]
      · obtain ⟨-, hend⟩ := htells.1.eq ht hlone (ends_membersChars hrest.1 _) hrest'.1 heq
        exact absurd (hend ▸ hrest') (not_closed_membersChars (List.cons_ne_nil _ _))
      · cases ht with
        | @union others hlength' hmembers hspelled =>
            have hothers : ∀ other ∈ others, Spelled other ∧ other.members = [other] := fun other h =>
              ⟨hspelled other h, (hmembers other h).members_eq⟩
            obtain ⟨other, others, rfl⟩ :=
              List.exists_cons_of_ne_nil (List.ne_nil_of_length_pos (Nat.lt_of_lt_of_le Nat.two_pos hlength'))
            rw [List.forall_mem_cons] at hothers
            rw [chars_union_cons, List.append_assoc] at heq
            obtain ⟨rfl, hmore⟩ := htells.1.eq hothers.1.1 hothers.1.2 (ends_membersChars hrest.1 _)
              (ends_membersChars hrest'.1 _) heq
            obtain ⟨rfl, hend⟩ := membersChars_append_inj htells.2 hothers.2 hrest hrest' hmore
            exact ⟨rfl, hend⟩
        | _ => exact absurd rfl hlone

/-! ### All types -/

/-- Types are told apart, and those that are no unions with brackets behind them as well. -/
theorem Spelled.tells (h : Spelled s) : (s.members = [s] → TellsArray s) ∧ Tells s := by
  have hword : ∀ {s : TypeExpr}, s ∈ wordTypes → (s.members = [s] → TellsArray s) ∧ Tells s := fun hs =>
    ⟨fun _ => tellsArray_word hs, tells_of_tellsArray (tellsArray_word hs)⟩
  induction h with
  | unknown => exact hword (by decide)
  | void => exact hword (by decide)
  | primitive hname =>
      exact hword (List.mem_cons_of_mem _ (List.mem_cons_of_mem _ (List.mem_map_of_mem hname)))
  | @array element helement ih =>
      have harray : TellsArray (.array element) := by
        by_cases hlone : element.members = [element]
        · intro t m n rest rest' ht htlone hrest hrest' heq
          rw [chars_array hlone helement] at heq
          exact ih.1 hlone ht htlone hrest hrest' heq
        · cases helement with
          | union hlength => exact tellsArray_group hlength ih.2
          | _ => exact absurd rfl hlone
      exact ⟨fun _ => harray, tells_of_tellsArray harray⟩
  | record hnames _ ih =>
      have hrecord := tellsArray_record (fun field hfield => (ih field hfield).2) hnames
      exact ⟨fun _ => hrecord, tells_of_tellsArray hrecord⟩
  | union hlength hmembers _ ih =>
      refine ⟨fun hlone => absurd hlone (members_union_ne hlength), tells_union hlength ?_⟩
      intro member hmember
      exact (ih member hmember).1 (hmembers member hmember).members_eq

/-- Types with the same text are the same type. -/
theorem eq_of_render_eq (s t : TypeExpr) (hs : Spelled s) (ht : Spelled t) (h : s.render = t.render) :
    s = t := by
  have hchars : chars s ++ [] = chars t ++ [] := by rw [chars, chars, h]
  exact (hs.tells.2 ht closed_nil closed_nil hchars).1

/-- `{ a?: (string | null)[][]; b: {} } | number[]` -/
def rows : TypeExpr :=
  .union [.record [⟨"a", .array (.array (.union [.string, .null])), true⟩, ⟨"b", .record [], false⟩],
    .array .number]

theorem spelled_rows : Spelled rows := by
  have hchoice : Spelled (.union [.string, .null]) :=
    .union (by simp) (by simpa using ⟨⟨rfl, rfl⟩, ⟨rfl, rfl⟩⟩)
      (by simpa using ⟨.primitive (by decide), .primitive (by decide)⟩)
  have hrecord : Spelled
      (.record [⟨"a", .array (.array (.union [.string, .null])), true⟩, ⟨"b", .record [], false⟩]) :=
    .record (by decide)
      (by simpa using ⟨.array (.array hchoice), .record (by simp) (by simp)⟩)
  exact .union (by simp) (by simpa using ⟨⟨rfl, rfl⟩, ⟨rfl, rfl⟩⟩)
    (by simpa using ⟨hrecord, .array (.primitive (by decide))⟩)

/-- A repeated member is left out of a union, and so it is the same type with the same text. -/
theorem eq_of_render_eq_rows :
    let repeated := unionOf [rows, .array .number]
    Spelled repeated ∧ Spelled rows ∧
      rows.render = "{ a?: (string | null)[][]; b: {} } | number[]" ∧
      repeated.render = rows.render ∧ repeated = rows := by
  intro repeated
  have hspelled : Spelled repeated := by
    have hsame : unionOf [rows, .array .number] = rows := by decide
    simpa only [repeated, hsame] using spelled_rows
  have hrender : repeated.render = rows.render := by decide
  exact ⟨hspelled, spelled_rows, by decide, hrender,
    eq_of_render_eq repeated rows hspelled spelled_rows hrender⟩

end RouteBinder.TypeExpr
