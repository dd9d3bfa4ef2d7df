import Mathlib.Data.List.Basic
import RouteBinder.Proofs.Grammar.Tokens

/-!
# RouteBinder.Proofs.Grammar.PropertyTexts

**Properties in object types.** A property is written `key: T` or `key?: T`, the key a name or a quoted text.
The other members of an object type may begin with a key as well, but then something else than a colon or a
question mark follows it, so they are all refused (`typeMember_property`). Words such as `readonly` or `new`
are keys here, too.
-/

namespace RouteBinder.Grammar

open Source Parse

variable {blanks key after rest : List Char} {c : Char} {inner : Inner} {kind : Kind}

/-! ### Keys -/

/-- A name, or a text in single quotes without escapes. -/
inductive Key : List Char → Prop where
  | word {key : List Char} (h : IsWord key) : Key key
  | quoted {content : List Char} (h : ∀ c ∈ content, c ∉ ['\x27', '\\', '\n', '\r']) :
      Key ('\x27' :: (content ++ ['\x27']))

/-- What follows the key of a property. -/
def FollowsKey (after : List Char) : Prop := ∃ c rest, after = c :: rest ∧ c ∈ [':', '?']

theorem FollowsKey.faces (h : FollowsKey after) :
    ∃ c ∈ [':', '?'], Faces (.start after) c ∧ isNameStart c = false := by
  obtain ⟨c, rest, rfl, hc⟩ := h
  refine ⟨c, hc, Grammar.faces rest ?_, ?_⟩ <;> rcases List.mem_pair.1 hc with rfl | rfl <;> decide

theorem FollowsKey.endsName (h : FollowsKey after) : EndsName after := by
  obtain ⟨c, rest, rfl, hc⟩ := h
  rintro d hd
  obtain rfl := Option.some.inj hd
  rcases List.mem_pair.1 hc with rfl | rfl <;> decide

/-- A key begins with a letter or with a quote. -/
theorem Key.faces (h : Key key) (hblanks : Spaces blanks) (after : List Char) :
    ∃ c, Faces (.start (blanks ++ (key ++ after))) c ∧ (isNameStart c = true ∨ c = '\x27') := by
  cases h with
  | word h =>
      obtain ⟨c, -, hfaces, hstart⟩ := faces_word hblanks h after
      exact ⟨c, hfaces, Or.inl hstart⟩
  | quoted h => exact ⟨'\x27', faces_start hblanks (by decide), Or.inr rfl⟩

/-- No mark begins like a key. -/
theorem Key.mark_refused {word : String} {d : Char} (h : Key key) (hblanks : Spaces blanks)
    (hword : word.toList.head? = some d) (hd : isNameStart d = false) (hquote : d ≠ '\x27') :
    mark word (.start (blanks ++ (key ++ after))) = none := by
  obtain ⟨c, hfaces, hc⟩ := h.faces hblanks after
  refine Grammar.mark_refused hfaces hword ?_
  rintro rfl
  rcases hc with hc | hc
  · rw [hd] at hc
    cases hc
  · exact hquote hc

/-- A keyword takes the whole key or nothing. -/
theorem Key.keyword (h : Key key) (hblanks : Spaces blanks) (hafter : FollowsKey after)
    (word : String) (hword : word ≠ "") :
    keyword word (.start (blanks ++ (key ++ after))) = none ∨
      ∃ item, keyword word (.start (blanks ++ (key ++ after))) = some (item, .start after) := by
  cases h with
  | word h =>
      by_cases heq : word.toList = key
      · subst heq
        exact Or.inr ⟨_, keyword_start hblanks h hafter.endsName⟩
      · exact Or.inl (keyword_refused (nameAt_start hblanks h hafter.endsName) heq)
  | quoted h =>
      exact Or.inl (keyword_refused_of_faces (faces_start hblanks (by decide)) (by decide) hword)

theorem Key.keywordOf (h : Key key) (hblanks : Spaces blanks) (hafter : FollowsKey after)
    {words : List String} (hwords : "" ∉ words) :
    keywordOf words (.start (blanks ++ (key ++ after))) = none ∨
      ∃ item, keywordOf words (.start (blanks ++ (key ++ after))) = some (item, .start after) := by
  cases h with
  | @word key h =>
      obtain ⟨word, rfl⟩ : ∃ word : String, key = word.toList :=
        ⟨String.ofList key, String.toList_ofList.symm⟩
      by_cases hmem : word ∈ words
      · exact Or.inr ⟨_, keywordOf_start hblanks h hafter.endsName hmem⟩
      · refine Or.inl (keywordOf_refused (nameAt_start hblanks h hafter.endsName) ?_)
        rwa [String.ofList_toList]
  | @quoted content h =>
      have hfaces : Faces (.start (blanks ++ ('\x27' :: (content ++ ['\x27']) ++ after))) '\x27' :=
        faces_start hblanks (by decide)
      exact Or.inl (keywordOf_refused (nameAt_of_faces hfaces (by decide)) hwords)

/-- A key is read as the name of a member. -/
theorem Key.propertyName (h : Key key) (hblanks : Spaces blanks) (hafter : FollowsKey after) :
    ∃ kind ∈ [Kind.propertyIdentifier, .string],
      propertyName inner (.start (blanks ++ (key ++ after))) =
        some (tokenItem blanks kind (String.ofList key), .start after) := by
  cases h with
  | word h =>
      exact ⟨.propertyIdentifier, by simp,
        run_orElse (name_start hblanks h hafter.endsName)⟩
  | @quoted content h =>
      have hrest : (Cursor.start (blanks ++ ('\x27' :: (content ++ ['\x27']) ++ after))).rest =
          '\x27' :: (content ++ ['\x27'] ++ after) := rest_start hblanks (by decide)
      have hfaces : Faces (.start (blanks ++ ('\x27' :: (content ++ ['\x27']) ++ after))) '\x27' :=
        ⟨_, hrest⟩
      have hname : name .propertyIdentifier
          (.start (blanks ++ ('\x27' :: (content ++ ['\x27']) ++ after))) = none :=
        name_refused (nameAt_of_faces hfaces (by decide))
      have hprivate : privateName
          (.start (blanks ++ ('\x27' :: (content ++ ['\x27']) ++ after))) = none := by
        refine (run_bind rfl).trans ?_
        rw [hrest]
        rfl
      have hstring := @stringLiteral_quoted blanks after content h hblanks
      exact ⟨.string, by simp,
        (run_orElse_none hname).trans ((run_orElse_none hprivate).trans (run_orElse hstring))⟩

/-! ### Members that a key does not begin -/

theorem Key.modifier_refused (h : Key key) (hblanks : Spaces blanks) (hafter : FollowsKey after)
    {openings : String} {words : List String} (hwords : "" ∉ words)
    (hopenings : ':' ∉ openings.toList ∧ '?' ∉ openings.toList) :
    modifier openings words kind (.start (blanks ++ (key ++ after))) = none := by
  rcases h.keywordOf hblanks hafter hwords with hnone | ⟨item, hitem⟩
  · exact run_bind_none hnone
  · obtain ⟨c, hc, ⟨rest, hrest⟩, hstart⟩ := hafter.faces
    have hsees : seesMember openings (.start after) = some (false, .start after) := by
      refine (run_bind rfl).trans ?_
      rw [hrest]
      have hnot : (isNameStart c || c.isDigit || openings.toList.contains c) = false := by
        rcases List.mem_pair.1 hc with rfl | rfl
        · rw [hstart, List.contains_eq_mem, decide_eq_false hopenings.1]
          decide
        · rw [hstart, List.contains_eq_mem, decide_eq_false hopenings.2]
          decide
      exact congrArg (fun found => some (found, _)) hnot
    exact (run_bind hitem).trans (run_bind hsees)

theorem Key.memberModifiers (h : Key key) (hblanks : Spaces blanks) (hafter : FollowsKey after) :
    memberModifiers (.start (blanks ++ (key ++ after))) =
      some ([], .start (blanks ++ (key ++ after))) := by
  have hmodifier : ∀ {words : List String} {kind : Kind}, "" ∉ words →
      modifier "\x22\x27[#" words kind (.start (blanks ++ (key ++ after))) = none := fun hwords =>
    h.modifier_refused hblanks hafter hwords (by decide)
  refine (run_bind (run_optional_none (hmodifier (by decide)))).trans ?_
  refine (run_bind (run_optional_none (hmodifier (by decide)))).trans ?_
  refine (run_bind (run_optional_none (hmodifier (by decide)))).trans ?_
  exact (run_bind (run_optional_none (hmodifier (by decide)))).trans rfl

theorem Key.methodModifiers (h : Key key) (hblanks : Spaces blanks) (hafter : FollowsKey after) :
    methodModifiers (.start (blanks ++ (key ++ after))) =
      some ([], .start (blanks ++ (key ++ after))) := by
  have hstar : mark "*" (.start (blanks ++ (key ++ after))) = none :=
    h.mark_refused hblanks (d := '*') (by decide) (by decide) (by decide)
  have hasync : modifier "\x22\x27[#*" ["async"] .symbol (.start (blanks ++ (key ++ after))) = none :=
    h.modifier_refused hblanks hafter (by decide) (by decide)
  have haccess : modifier "\x22\x27[#" ["get", "set"] .symbol
      (.start (blanks ++ (key ++ after))) = none :=
    h.modifier_refused hblanks hafter (by decide) (by decide)
  have hform := run_optional_none ((run_orElse_none haccess).trans hstar)
  exact (run_bind (run_optional_none hasync)).trans ((run_bind hform).trans rfl)

/-- Neither parameters nor type parameters follow a key, and neither does a bracket. -/
theorem FollowsKey.refused (h : FollowsKey after) :
    typeParameters inner (.start after) = none ∧ formalParameters inner (.start after) = none ∧
      mark "[" (.start after) = none ∧ keyword "new" (.start after) = none := by
  obtain ⟨c, hc, hfaces, hstart⟩ := h.faces
  have hne : '<' ≠ c ∧ '(' ≠ c ∧ '[' ≠ c := by
    rcases List.mem_pair.1 hc with rfl | rfl <;> decide
  exact ⟨typeParameters_refused hfaces hne.1.symm, formalParameters_refused hfaces hne.2.1.symm,
    Grammar.mark_refused hfaces (d := '[') (by decide) hne.2.2,
    keyword_refused_of_faces hfaces hstart (by decide)⟩

theorem Key.callSignature_refused (h : Key key) (hblanks : Spaces blanks) :
    callSignature inner .type (.start (blanks ++ (key ++ after))) = none := by
  have hangle : typeParameters inner (.start (blanks ++ (key ++ after))) = none :=
    run_bind_none (run_bind_none
      (h.mark_refused hblanks (d := '<') (by decide) (by decide) (by decide)))
  have hparameters : formalParameters inner (.start (blanks ++ (key ++ after))) = none :=
    run_bind_none (run_bind_none
      (h.mark_refused hblanks (d := '(') (by decide) (by decide) (by decide)))
  exact run_bind_none ((run_bind (run_optional_none hangle)).trans (run_bind_none hparameters))

theorem Key.constructSignature_refused (h : Key key) (hblanks : Spaces blanks)
    (hafter : FollowsKey after) :
    constructSignature inner .type (.start (blanks ++ (key ++ after))) = none := by
  obtain ⟨hangle, hparameters, -, hnew⟩ := @FollowsKey.refused after inner hafter
  -- The key itself may be one of the two words.
  rcases h.keyword hblanks hafter "abstract" (by decide) with habstract | ⟨item, habstract⟩
  · refine (run_bind (run_optional_none habstract)).trans ?_
    rcases h.keyword hblanks hafter "new" (by decide) with hword | ⟨item, hword⟩
    · exact run_bind_none hword
    · refine (run_bind hword).trans ((run_bind (run_optional_none hangle)).trans ?_)
      exact run_bind_none hparameters
  · exact (run_bind (run_optional habstract)).trans (run_bind_none hnew)

theorem Key.indexSignature_refused (h : Key key) (hblanks : Spaces blanks)
    (hafter : FollowsKey after) :
    indexSignature inner .type (.start (blanks ++ (key ++ after))) = none := by
  obtain ⟨-, -, hbracket, -⟩ := @FollowsKey.refused after inner hafter
  have hsign : (mark "-" <|> mark "+" : Parse Item) (.start (blanks ++ (key ++ after))) = none :=
    (run_orElse_none (h.mark_refused hblanks (d := '-') (by decide) (by decide) (by decide))).trans
      (h.mark_refused hblanks (d := '+') (by decide) (by decide) (by decide))
  refine (run_bind (run_optional_none hsign)).trans ?_
  rcases h.keyword hblanks hafter "readonly" (by decide) with hword | ⟨item, hword⟩
  · refine (run_bind (run_optional_none hword)).trans ((run_bind run_require_true).trans ?_)
    exact run_bind_none (h.mark_refused hblanks (d := '[') (by decide) (by decide) (by decide))
  · refine (run_bind (run_optional hword)).trans ((run_bind run_require_true).trans ?_)
    exact run_bind_none hbracket

/-! ### Properties -/

def optionalMark (optional : Bool) : List Char := if optional then ['?'] else []

/-- The property that is read. -/
def propertyItem (blanks key : List Char) (kind : Kind) (optional : Bool) (type : Item) : Item :=
  .branch .propertySignature
    ([(tokenItem blanks kind (String.ofList key)).as .name] ++
      (if optional then [tokenItem [] .symbol "?"] else []) ++
      [(Item.branch .typeClause [tokenItem [] .symbol ":", type]).as .type])

theorem followsKey_optionalMark (optional : Bool) (rest : List Char) :
    FollowsKey (optionalMark optional ++ ':' :: rest) := by
  cases optional with
  | false => exact ⟨':', rest, rfl, by simp⟩
  | true => exact ⟨'?', ':' :: rest, rfl, by simp⟩

theorem run_optionalMark (optional : Bool) (rest : List Char) :
    Parse.optional (mark "?") (.start (optionalMark optional ++ ':' :: rest)) =
      some (if optional then some (tokenItem [] .symbol "?") else none, .start (':' :: rest)) := by
  cases optional with
  | false =>
      exact run_optional_none (Grammar.mark_refused (Grammar.faces rest (by decide))
        (d := '?') (by decide) (by decide))
  | true => exact run_optional (mark_char spaces_nil (by decide) (by decide))

/-- No method, since no parameters follow. -/
theorem callSignatureParts_refused {boundary : Boundary} (rest : List Char) :
    callSignatureParts inner boundary (.start (':' :: rest)) = none := by
  have hfaces : Faces (.start (':' :: rest)) ':' := Grammar.faces rest (by decide)
  refine (run_bind (run_optional_none (typeParameters_refused hfaces (by decide)))).trans ?_
  exact run_bind_none (formalParameters_refused hfaces (by decide))

/-- A property is read as one, whatever its key is. -/
theorem typeMember_property (hkey : Key key) (optional : Bool) {text rest : List Char} {type : Item}
    (htype : inner.type .type (.start (' ' :: (text ++ rest))) = some (type, .start rest))
    (hblanks : Spaces blanks) :
    ∃ kind ∈ [Kind.propertyIdentifier, .string],
      typeMember inner
          (.start (blanks ++ (key ++ (optionalMark optional ++ ':' :: ' ' :: (text ++ rest))))) =
        some (propertyItem blanks key kind optional type, .start rest) := by
  have hafter := followsKey_optionalMark optional (' ' :: (text ++ rest))
  obtain ⟨kind, hkind, hname⟩ := @Key.propertyName blanks key _ inner hkey hblanks hafter
  have hquestion := run_optionalMark optional (' ' :: (text ++ rest))
  have hmethod : methodSignature inner .type
      (.start (blanks ++ (key ++ (optionalMark optional ++ ':' :: ' ' :: (text ++ rest))))) =
        none := by
    refine (run_bind (hkey.memberModifiers hblanks hafter)).trans ?_
    refine (run_bind (hkey.methodModifiers hblanks hafter)).trans ?_
    refine (run_bind hname).trans ((run_bind hquestion).trans (run_bind_none ?_))
    exact callSignatureParts_refused _
  have hclause : typeClause inner .type (.start (':' :: ' ' :: (text ++ rest))) =
      some (.branch .typeClause [tokenItem [] .symbol ":", type], .start rest) :=
    (run_bind (mark_char spaces_nil (by decide) (by decide))).trans ((run_bind htype).trans rfl)
  have hproperty : propertySignature inner .type
      (.start (blanks ++ (key ++ (optionalMark optional ++ ':' :: ' ' :: (text ++ rest))))) =
        some (propertyItem blanks key kind optional type, .start rest) := by
    refine (run_bind (hkey.memberModifiers hblanks hafter)).trans ((run_bind hname).trans ?_)
    refine (run_bind hquestion).trans ((run_bind (run_optional hclause)).trans ?_)
    cases optional <;> rfl
  refine ⟨kind, hkind, ?_⟩
  rw [typeMember, run_orElse_none (hkey.callSignature_refused hblanks),
    run_orElse_none (hkey.constructSignature_refused hblanks hafter),
    run_orElse_none (hkey.indexSignature_refused hblanks hafter), run_orElse_none hmethod, hproperty]

/-! ### No member -/

/-- A member of an object type does not begin with a closing brace. -/
theorem typeMember_refused (h : Faces cursor '\x7d') : typeMember inner cursor = none := by
  have hname : nameAt cursor.rest = [] := nameAt_of_faces h (by decide)
  have hword : ∀ {word : String}, word ≠ "" → keyword word cursor = none := fun hword =>
    keyword_refused_of_faces h (by decide) hword
  have hmark : ∀ {word : String} {d : Char}, word.toList.head? = some d → d ≠ '\x7d' →
      mark word cursor = none := Grammar.mark_refused h
  have hmodifier : ∀ {openings : String} {words : List String} {kind : Kind}, "" ∉ words →
      Parse.optional (modifier openings words kind) cursor = some (none, cursor) := fun hwords =>
    run_optional_none (Grammar.modifier_refused (by rwa [hname]))
  have hmodifiers : memberModifiers cursor = some ([], cursor) := by
    refine (run_bind (hmodifier (by decide))).trans ((run_bind (hmodifier (by decide))).trans ?_)
    exact (run_bind (hmodifier (by decide))).trans ((run_bind (hmodifier (by decide))).trans rfl)
  have hsignature : ∀ {boundary : Boundary}, callSignatureParts inner boundary cursor = none := by
    intro boundary
    refine (run_bind (run_optional_none (typeParameters_refused h (by decide)))).trans ?_
    exact run_bind_none (formalParameters_refused h (by decide))
  have hproperty : propertyName inner cursor = none := by
    obtain ⟨rest, hrest⟩ := h
    have hprivate : privateName cursor = none := by
      refine (run_bind rfl).trans ?_
      rw [hrest]
      rfl
    have hstring : stringLiteral cursor = none :=
      literal_refused (by rw [hrest, stringLength_eq_none (by decide)])
    have hnumber : numberLiteral cursor = none :=
      literal_refused (by rw [hrest, numberLength_eq_none (by decide) (by decide)])
    rw [propertyName, run_orElse_none (name_refused hname), run_orElse_none hprivate,
      run_orElse_none hstring, run_orElse_none hnumber]
    exact run_bind_none (hmark (d := '[') (by decide) (by decide))
  have hcall : callSignature inner .type cursor = none := run_bind_none hsignature
  have hconstruct : constructSignature inner .type cursor = none :=
    (run_bind (run_optional_none (hword (by decide)))).trans (run_bind_none (hword (by decide)))
  have hindex : indexSignature inner .type cursor = none := by
    have hsign : (mark "-" <|> mark "+" : Parse Item) cursor = none :=
      (run_orElse_none (hmark (d := '-') (by decide) (by decide))).trans
        (hmark (d := '+') (by decide) (by decide))
    refine (run_bind (run_optional_none hsign)).trans ?_
    refine (run_bind (run_optional_none (hword (by decide)))).trans ?_
    exact (run_bind run_require_true).trans (run_bind_none (hmark (d := '[') (by decide) (by decide)))
  have hmethod : methodSignature inner .type cursor = none := by
    have hform : Parse.optional (modifier "\x22\x27[#" ["get", "set"] .symbol <|> mark "*") cursor =
        some (none, cursor) :=
      run_optional_none ((run_orElse_none (Grammar.modifier_refused (by rw [hname]; decide))).trans
        (hmark (d := '*') (by decide) (by decide)))
    have hforms : methodModifiers cursor = some ([], cursor) :=
      (run_bind (hmodifier (by decide))).trans ((run_bind hform).trans rfl)
    exact (run_bind hmodifiers).trans ((run_bind hforms).trans (run_bind_none hproperty))
  have hsignature : propertySignature inner .type cursor = none :=
    (run_bind hmodifiers).trans (run_bind_none hproperty)
  rw [typeMember, run_orElse_none hcall, run_orElse_none hconstruct, run_orElse_none hindex,
    run_orElse_none hmethod, hsignature]

end RouteBinder.Grammar
