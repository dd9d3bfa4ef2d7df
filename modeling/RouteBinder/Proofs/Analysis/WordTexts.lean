import RouteBinder.Proofs.Analysis.TypeTexts

/-!
# RouteBinder.Proofs.Analysis.WordTexts

**Types of one token.** A predefined type, a literal or a name is read as itself at every site.
-/

namespace RouteBinder.Analysis

open Source Grammar Parse TypeExpr

variable {inner : Inner} {boundary : Boundary} {cursor : Cursor} {text rest blanks : List Char}
  {type : TypeExpr} {item : Item} {c : Char} {site : Site}

/-! ### Words -/

/-- A word that is read as a primary type, and that is none of those that operators begin with. -/
theorem readAt_of_primary {word : String} (hword : IsWord word.toList)
    (hoperator : word ∉ ["abstract", "new", "readonly", "keyof", "infer"])
    (h : ∀ inner boundary blanks site rest, Spaces blanks → Site.Ends site rest → ∃ item,
      primaryType inner boundary (.start (blanks ++ (word.toList ++ rest))) =
        some (item, .start rest) ∧ Denotes type item.node) (site : Site) :
    ReadAt site word type := by
  obtain ⟨c, hhead, hstart⟩ := hword.exists_head
  have hbegins : Begins word.toList := by
    refine ⟨c, hhead, beginsToken_of_isNameStart hstart, fun hc => ?_⟩
    rcases List.mem_pair.1 hc with rfl | rfl
    · exact absurd hstart (by decide)
    · exact absurd hstart (by decide)
  refine readAt_of_grows hbegins (fun depth boundary site rest _ hends blanks hblanks => ?_) site
  obtain ⟨item, hprimary, hdenotes⟩ := h (.ofDepth depth) boundary blanks site rest hblanks hends
  have hname : nameAt (Cursor.start (blanks ++ (word.toList ++ rest))).rest = word.toList :=
    nameAt_start hblanks hword hends.endsName
  obtain ⟨c, -, hfaces, hstart⟩ := faces_word hblanks hword rest
  refine ⟨item, unprefixed_of_word hfaces hstart ?_, run_bind hprimary, hdenotes⟩
  rw [hname, String.ofList_toList]
  exact hoperator

theorem isWord_of_mem_predefinedNames {word : String} (h : word ∈ predefinedNames) :
    IsWord word.toList ∧ word ∉ ["abstract", "new", "readonly", "keyof", "infer"] ∧
      word ≠ "typeof" := by
  revert word
  decide

theorem primaryType_predefined {word : String} (h : word ∈ predefinedNames) (hblanks : Spaces blanks)
    (hrest : EndsName rest) :
    primaryType inner boundary (.start (blanks ++ (word.toList ++ rest))) =
      some (tokenItem blanks .predefinedType word, .start rest) := by
  obtain ⟨hword, -, hne⟩ := isWord_of_mem_predefinedNames h
  have htypeof : keyword "typeof" (.start (blanks ++ (word.toList ++ rest))) = none :=
    keyword_refused (nameAt_start hblanks hword hrest) fun heq => hne (String.toList_inj.1 heq).symm
  refine (run_orElse_none (run_bind_none htypeof)).trans (run_orElse (run_orElse ?_))
  exact (run_bind (keywordOf_start hblanks hword hrest h)).trans rfl

theorem readAt_predefined {word : String} (h : word ∈ predefinedNames) (site : Site) :
    ReadAt site word (writtenType (.leaf {} .predefinedType word)) := by
  obtain ⟨hword, hoperator, -⟩ := isWord_of_mem_predefinedNames h
  refine readAt_of_primary hword hoperator (fun inner boundary blanks site rest hblanks hends => ?_) site
  exact ⟨_, primaryType_predefined h hblanks hends.endsName,
    { isNamed := rfl, kind_ne := nofun, written := rfl }⟩

/-- Words that are literals. -/
def literalWords : List (String × Kind) :=
  [("true", .trueLiteral), ("false", .falseLiteral), ("null", .nullLiteral),
    ("undefined", .undefinedLiteral)]

theorem isWord_of_mem_literalWords : ∀ entry ∈ literalWords, IsWord entry.1.toList := by decide

theorem literalType_word {word : String} {kind : Kind} (h : (word, kind) ∈ literalWords)
    (hblanks : Spaces blanks) (hrest : EndsName rest) :
    literalType (.start (blanks ++ (word.toList ++ rest))) =
      some (.branch .literalType [tokenItem blanks kind word], .start rest) := by
  have hword : IsWord word.toList := isWord_of_mem_literalWords _ h
  have hkeyword := keyword_start hblanks hword hrest
  have hname := nameAt_start hblanks hword hrest
  obtain ⟨c, -, hfaces, hstart⟩ := faces_word hblanks hword rest
  obtain ⟨hstring, hnumber⟩ := literals_refused hfaces hstart
  generalize Cursor.start (blanks ++ (word.toList ++ rest)) = cursor at *
  have hrefused : ∀ {other : String} {kind : Kind}, other.toList ≠ word.toList →
      (do return (← keyword other).retag kind : Parse Item) cursor = none := fun hne =>
    run_bind_none (keyword_refused hname hne)
  have hread : (do return (← keyword word).retag kind : Parse Item) cursor =
      some (tokenItem blanks kind word, .start rest) := (run_bind hkeyword).trans rfl
  refine (run_bind ((run_orElse_none hstring).trans ((run_orElse_none hnumber).trans ?_))).trans rfl
  simp only [literalWords, List.mem_cons, Prod.mk.injEq, List.not_mem_nil, or_false] at h
  rcases h with ⟨rfl, rfl⟩ | ⟨rfl, rfl⟩ | ⟨rfl, rfl⟩ | ⟨rfl, rfl⟩
  · exact run_orElse hread
  · exact (run_orElse_none (hrefused (by decide))).trans (run_orElse hread)
  · exact (run_orElse_none (hrefused (by decide))).trans
      ((run_orElse_none (hrefused (by decide))).trans (run_orElse hread))
  · exact (run_orElse_none (hrefused (by decide))).trans
      ((run_orElse_none (hrefused (by decide))).trans
        ((run_orElse_none (hrefused (by decide))).trans (run_orElse hread)))

theorem readAt_literalWord {word : String} {kind : Kind} (h : (word, kind) ∈ literalWords)
    (site : Site) :
    ReadAt site word (writtenType (.branch {} .literalType [.leaf {} kind word])) := by
  have hword : IsWord word.toList := isWord_of_mem_literalWords _ h
  have hother : ∀ entry ∈ literalWords,
      entry.1 ∉ ["abstract", "new", "readonly", "keyof", "infer"] ∧
        entry.1 ∉ "typeof" :: "unique" :: predefinedNames := by
    decide
  obtain ⟨hoperator, hother⟩ := hother _ h
  refine readAt_of_primary hword hoperator (fun inner boundary blanks site rest hblanks hends => ?_) site
  have hname := nameAt_start hblanks hword hends.endsName
  have hliteral := literalType_word h hblanks hends.endsName
  generalize Cursor.start (blanks ++ (word.toList ++ rest)) = cursor at *
  have hrefused : ∀ {other : String}, other ∈ "typeof" :: "unique" :: predefinedNames →
      keyword other cursor = none := fun hmem =>
    keyword_refused hname fun heq => hother (String.toList_inj.1 heq ▸ hmem)
  have hpredefined : predefinedType cursor = none := by
    refine (run_orElse_none (run_bind_none (keywordOf_refused hname ?_))).trans
      (run_bind_none (hrefused (by decide)))
    rw [String.ofList_toList]
    exact fun hmem => hother (List.mem_cons_of_mem _ (List.mem_cons_of_mem _ hmem))
  refine ⟨_, (run_orElse_none (run_bind_none (hrefused (by decide)))).trans
    ((run_orElse_none hpredefined).trans (run_orElse hliteral)), ?_⟩
  exact { isNamed := rfl, kind_ne := nofun, written := rfl }

/-! ### Names -/

/-- Words that are no names where a type begins. -/
def typeWords : List String :=
  ["abstract", "new", "readonly", "keyof", "infer", "typeof", "unique", "import", "this", "true",
    "false", "null", "undefined"] ++ predefinedNames

/-- Neither a qualified name nor arguments go on at the end of a type. -/
theorem namedType_start {word : String} (hword : IsWord word.toList) (hblanks : Spaces blanks)
    (hends : site.Ends rest) :
    namedType inner boundary (.start (blanks ++ (word.toList ++ rest))) =
      some (tokenItem blanks .typeIdentifier word, .start rest) := by
  obtain ⟨c, hc, hfaces⟩ := hends.faces
  have hmarks : '.' ≠ c ∧ '<' ≠ c := by
    simp only [List.mem_cons, List.not_mem_nil, or_false] at hc
    rcases hc with rfl | rfl | rfl | rfl | rfl <;> decide
  have harguments : Grammar.typeArguments inner (.start rest) = none :=
    run_bind_none (mark_refused hfaces (d := '<') (by decide) hmarks.2)
  refine (run_bind (name_start hblanks hword hends.endsName)).trans ?_
  rw [String.ofList_toList]
  refine (run_bind (chain_refused (run_bind_none ?_))).trans ?_
  · exact mark_refused hfaces (d := '.') (by decide) hmarks.1
  · exact (run_orElse_none (goesOn_refused (run_bind_none harguments))).trans rfl

/-- A name is read as a type that is not looked into. -/
theorem readAt_name {word : String} (hword : IsWord word.toList) (hne : word ∉ typeWords)
    (site : Site) : ReadAt site word (.named word) := by
  have hoperator : word ∉ ["abstract", "new", "readonly", "keyof", "infer"] := fun hmem =>
    hne (List.mem_append_left _ (List.mem_append_left ["typeof", "unique", "import", "this", "true",
      "false", "null", "undefined"] hmem))
  refine readAt_of_primary hword hoperator (fun inner boundary blanks site rest hblanks hends => ?_) site
  have hname := nameAt_start hblanks hword hends.endsName
  obtain ⟨c, -, hfaces, hstart⟩ := faces_word hblanks hword rest
  obtain ⟨hstring, hnumber⟩ := literals_refused hfaces hstart
  have hnamed := @namedType_start inner boundary rest blanks site word hword hblanks hends
  generalize Cursor.start (blanks ++ (word.toList ++ rest)) = cursor at *
  have hkeyword : ∀ {other : String}, other ∈ typeWords → keyword other cursor = none := fun hmem =>
    keyword_refused hname fun heq => hne (String.toList_inj.1 heq ▸ hmem)
  have hmark : ∀ {other : String} {d : Char}, other.toList.head? = some d → isNameStart d = false →
      mark other cursor = none := fun hother hd => mark_refused hfaces hother (by
    rintro rfl
    rw [hd] at hstart
    cases hstart)
  have hpredefined : predefinedType cursor = none := by
    refine (run_orElse_none (run_bind_none (keywordOf_refused hname ?_))).trans
      (run_bind_none (hkeyword (by decide)))
    rw [String.ofList_toList]
    exact fun hmem => hne (List.mem_append_right _ hmem)
  have hliteral : literalType cursor = none := by
    have hsign : (mark "-" <|> mark "+" : Parse Item) cursor = none :=
      (run_orElse_none (hmark (d := '-') (by decide) (by decide))).trans
        (hmark (d := '+') (by decide) (by decide))
    refine run_bind_none ?_
    rw [run_orElse_none hstring, run_orElse_none hnumber,
      run_orElse_none (run_bind_none (hkeyword (by decide))),
      run_orElse_none (run_bind_none (hkeyword (by decide))),
      run_orElse_none (run_bind_none (hkeyword (by decide))),
      run_orElse_none (run_bind_none (hkeyword (by decide)))]
    exact run_bind_none hsign
  have himported : importedType inner boundary cursor = none := by
    have hother : (word == "import") = false := beq_false_of_ne fun heq => hne (heq ▸ by decide)
    refine (run_bind rfl).trans ?_
    rw [hname, String.ofList_toList, hother]
    rfl
  have htemplate : templateOf .templateLiteralType
      (substitutionOf .templateType (inner.type .enclosed)) cursor = none :=
    run_bind_none (hmark (d := '\x60') (by decide) (by decide))
  have hparenthesized : parenthesizedType inner cursor = none :=
    run_bind_none (hmark (d := '(') (by decide) (by decide))
  have hobject : objectTypeOf inner .objectType cursor = none :=
    run_bind_none (hmark (d := '\x7b') (by decide) (by decide))
  have htuple : (do return .branch .tupleType (← denseList "[" "]" (tupleMember inner)) : Parse Item)
      cursor = none := run_bind_none (run_bind_none (hmark (d := '[') (by decide) (by decide)))
  refine ⟨tokenItem blanks .typeIdentifier word, ?_,
    { isNamed := rfl, kind_ne := nofun, written := ?_ }⟩
  · rw [primaryType, run_orElse_none (run_bind_none (hkeyword (by decide))),
      run_orElse_none hpredefined, run_orElse_none hliteral, run_orElse_none himported,
      run_orElse_none (run_bind_none (hkeyword (by decide))),
      run_orElse_none htemplate]
    exact (run_orElse_none hparenthesized).trans ((run_orElse_none hobject).trans
      ((run_orElse_none htuple).trans hnamed))
  · rw [writtenType.eq_def]
    rfl

/-! ### Texts in quotes -/

/-- A text in quotes is a literal. -/
theorem readAt_quoted {content : List Char} (h : ∀ c ∈ content, c ∉ ['\x27', '\\', '\n', '\r'])
    (site : Site) :
    ReadAt site (String.ofList ('\x27' :: (content ++ ['\x27'])))
      (.named (String.ofList ('\x27' :: (content ++ ['\x27'])))) := by
  have hbegins : Begins (String.ofList ('\x27' :: (content ++ ['\x27']))).toList := by
    rw [String.toList_ofList]
    exact ⟨'\x27', rfl, by decide, by decide⟩
  refine readAt_of_grows hbegins (fun depth boundary site rest _ hends blanks hblanks => ?_) site
  rw [String.toList_ofList]
  have hstring := @stringLiteral_quoted blanks rest content h hblanks
  have hfaces : Faces (.start (blanks ++ ('\x27' :: (content ++ ['\x27']) ++ rest))) '\x27' :=
    faces_start hblanks (by decide)
  generalize Cursor.start (blanks ++ ('\x27' :: (content ++ ['\x27']) ++ rest)) = cursor at *
  have hname : nameAt cursor.rest = [] := nameAt_of_faces hfaces (by decide)
  have hword : ∀ {word : String}, word ≠ "" → keyword word cursor = none := fun hword =>
    keyword_refused_of_faces hfaces (by decide) hword
  have hpredefined : predefinedType cursor = none :=
    (run_orElse_none (run_bind_none (keywordOf_refused hname (by decide)))).trans
      (run_bind_none (hword (by decide)))
  have hliteral : literalType cursor =
      some (.branch .literalType [tokenItem blanks .string
        (String.ofList ('\x27' :: (content ++ ['\x27'])))], .start rest) :=
    (run_bind (run_orElse hstring)).trans rfl
  have hprimary : primaryType (.ofDepth depth) boundary cursor =
      some (.branch .literalType [tokenItem blanks .string
        (String.ofList ('\x27' :: (content ++ ['\x27'])))], .start rest) :=
    (run_orElse_none (run_bind_none (hword (by decide)))).trans
      ((run_orElse_none hpredefined).trans (run_orElse hliteral))
  refine ⟨_, unprefixed_of_mark hfaces (by decide) (by decide)
    (formalParameters_refused hfaces (by decide)), run_bind hprimary,
    { isNamed := rfl, kind_ne := nofun, written := ?_ }⟩
  generalize String.ofList ('\x27' :: (content ++ ['\x27'])) = text
  have htext : (Item.branch .literalType [tokenItem blanks .string text]).node.text = text := by
    show "" ++ (text ++ "") = text
    rw [String.append_empty, String.empty_append]
  rw [writtenType.eq_def]
  exact congrArg TypeExpr.named htext

end RouteBinder.Analysis
