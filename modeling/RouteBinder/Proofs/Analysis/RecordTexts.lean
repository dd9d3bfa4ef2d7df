import RouteBinder.Proofs.Analysis.TypeTexts
import RouteBinder.Proofs.Grammar.PropertyTexts

/-!
# RouteBinder.Proofs.Analysis.RecordTexts

**Records from the texts of their fields.** Between braces, semicolons separate the members, so the type of
a field stands by itself: a record is read as it was written when each of its fields is (`readAt_record`).
-/

namespace RouteBinder.Analysis

open Source Grammar Parse TypeExpr Text

variable {inner : Inner} {boundary : Boundary} {cursor : Cursor} {blanks key rest : List Char}
  {type : TypeExpr} {item : Item} {kind : Kind} {field : Field} {fields : List Field}

/-! ### Fields -/

/-- The item declares the field. -/
structure Declares (field : Field) (item : Item) : Prop where
  isConstruct : isConstruct item.node = true
  memberField? : memberField? item.node = some field

theorem memberField?_placedAt (node : Node) (place : Place) :
    memberField? (node.placedAt place) = memberField? node := by
  cases node <;> rfl

/-- What is read off a property. -/
theorem declares_propertyItem (hkind : kind ∈ [Kind.propertyIdentifier, .string]) (optional : Bool)
    (hitem : Denotes type item.node) :
    Declares ⟨trimQuotes (String.ofList key), type, optional⟩
      (propertyItem blanks key kind optional item) := by
  have hclause : ∀ place, writtenType
      ((Item.branch .typeClause [tokenItem [] .symbol ":", item]).node.placedAt place) = type := by
    intro place
    have hfirst : ((([tokenItem [] .symbol ":", item]).map
        Item.node |>.filter isConstruct).map writtenType).head? = some type := by
      rw [List.map_cons, List.filter_cons_of_neg (by rw [isConstruct_tokenItem]; decide),
        List.map_singleton, List.filter_cons_of_pos hitem.isConstruct, List.map_cons, hitem.written]
      rfl
    obtain ⟨first, hfound, hwritten⟩ := exists_firstNamed? .typeClause hfirst
    rw [writtenType_placedAt, writtenType_typeClause rfl hfound, hwritten]
  refine ⟨rfl, ?_⟩
  rcases List.mem_pair.1 hkind with rfl | rfl <;> cases optional <;>
    exact congrArg (fun type => some (FieldOf.mk (trimQuotes (String.ofList key)) type _)) (hclause _)

/-- A field that can be read from its text: the key is spelled as a key, and the type by itself is read as
the type of the field. -/
structure FieldReadAt (field : Field) : Prop where
  key : Key (renderName field.name).toList
  name : trimQuotes (renderName field.name) = field.name
  type : ReadAt .whole field.type.render field.type

theorem toList_renderField (field : Field) :
    (renderField field).toList = (renderName field.name).toList ++
      (optionalMark field.optional ++ ':' :: ' ' :: field.type.render.toList) := by
  obtain ⟨name, type, optional⟩ := field
  rw [renderField, String.toList_append, String.toList_append, String.toList_append]
  cases optional <;> rfl

theorem toList_renderFields_cons (field : Field) (fields : List Field) :
    (renderFields (field :: fields)).toList =
      ';' :: ' ' :: ((renderField field).toList ++ (renderFields fields).toList) := by
  rw [renderFields, String.toList_append, String.toList_append]
  rfl

/-- What stands behind a field in braces. -/
theorem closes_renderFields (fields : List Field) (rest : List Char) :
    Closes ((renderFields fields).toList ++ ' ' :: '\x7d' :: rest) := by
  cases fields with
  | nil => exact .brace rest
  | cons field fields =>
      rw [toList_renderFields_cons]
      exact .semicolon _

/-- A field is read as a member of an object type. -/
theorem FieldReadAt.exists_typeMember (h : FieldReadAt field) {depth : Nat}
    (hdepth : stepsPerCharacter * (renderField field).length < depth) (hcloses : Closes rest)
    (hblanks : Spaces blanks) :
    ∃ item, typeMember (.ofDepth depth) (.start (blanks ++ ((renderField field).toList ++ rest))) =
        some (item, .start rest) ∧ Declares field item := by
  have hlength := congrArg List.length (toList_renderField field)
  simp only [List.length_append, List.length_cons, String.length_toList] at hlength
  cases depth with
  | zero => cases hdepth
  | succ depth =>
  have hinner : stepsPerCharacter * field.type.render.length < depth := by
    simp only [stepsPerCharacter] at hdepth ⊢
    omega
  obtain ⟨type, hread, hdenotes⟩ :=
    h.type.reads depth .type rest hinner (.whole hcloses) [' '] spaces_one
  have htype : (Inner.ofDepth (depth + 1)).type .type
      (.start (' ' :: (field.type.render.toList ++ rest))) = some (type, .start rest) := hread
  obtain ⟨kind, hkind, hmember⟩ := typeMember_property h.key field.optional htype hblanks
  refine ⟨propertyItem blanks (renderName field.name).toList kind field.optional type, ?_, ?_⟩
  · rw [toList_renderField, List.append_assoc, List.append_assoc, List.cons_append, List.cons_append]
    exact hmember
  · have hdeclares := @declares_propertyItem blanks (renderName field.name).toList _ type kind hkind
      field.optional hdenotes
    rwa [String.ofList_toList, h.name] at hdeclares

/-! ### Members between braces -/

/-- What separates a member of an object type from the one before it. -/
def separator : Parse (List Item) := (do return [← mark ","]) <|> semicolon .type

theorem separator_semicolon (rest : List Char) :
    separator (.start (';' :: rest)) = some ([tokenItem [] .symbol ";"], .start rest) := by
  have hcomma : (do return [← mark ","] : Parse (List Item)) (.start (';' :: rest)) = none :=
    run_bind_none (mark_refused (faces rest (by decide)) (d := ',') (by decide) (by decide))
  exact (run_orElse_none hcomma).trans (semicolon_start rest)

/-- A member of an object type behind the first one. -/
def furtherMember (inner : Inner) : Parse (List Item) := do
  let separator ← separator
  let member ← typeMember inner
  pure (separator ++ [member])

/-- No further member stands in front of the closing brace. -/
theorem furtherMember_refused (h : Faces cursor '\x7d') : furtherMember inner cursor = none := by
  have hcomma : (do return [← mark ","] : Parse (List Item)) cursor = none :=
    run_bind_none (mark_refused h (d := ',') (by decide) (by decide))
  have hends : ∃ found, endsHere .type cursor = some (found, cursor) := ⟨_, rfl⟩
  obtain ⟨found, hfound⟩ := hends
  have hseparator : separator cursor =
      (if found then pure [] else do return [← mark ";"] : Parse (List Item)) cursor :=
    (run_orElse_none hcomma).trans (run_bind hfound)
  cases found with
  | true => exact (run_bind hseparator).trans (run_bind_none (typeMember_refused h))
  | false =>
      exact run_bind_none (hseparator.trans
        (run_bind_none (mark_refused h (d := ';') (by decide) (by decide))))

/-- The fields that items declare. -/
def declared (items : List Item) : List Field :=
  ((items.map Item.node).filter isConstruct).filterMap memberField?

theorem declared_cons (h : Declares field item) (items : List Item) :
    declared (item :: items) = field :: declared items := by
  rw [declared, List.map_cons, List.filter_cons_of_pos h.isConstruct,
    List.filterMap_cons_some h.memberField?]
  rfl

theorem declared_cons_token (text : String) (items : List Item) :
    declared (tokenItem blanks .symbol text :: items) = declared items := by
  rw [declared, List.map_cons, List.filter_cons_of_neg (by rw [isConstruct_tokenItem]; decide)]
  rfl

theorem declared_concat_token (text : String) (items : List Item) :
    declared (items ++ [tokenItem blanks .symbol text]) = declared items := by
  rw [declared, List.map_append, List.filter_append, List.map_singleton,
    List.filter_cons_of_neg (by rw [isConstruct_tokenItem]; decide), List.filter_nil, List.append_nil]
  rfl

/-- The fields behind the first are read one by one. -/
theorem exists_furtherMembers {depth : Nat} (h : ∀ field ∈ fields, FieldReadAt field)
    (hdepth : stepsPerCharacter * (renderFields fields).length < depth) (rest : List Char) :
    ∃ groups, Parse.many (furtherMember (.ofDepth depth))
        (.start ((renderFields fields).toList ++ ' ' :: '\x7d' :: rest)) =
          some (groups, .start (' ' :: '\x7d' :: rest)) ∧
      declared groups.flatten = fields := by
  induction fields with
  | nil => exact ⟨[], run_many_none (furtherMember_refused (faces_space rest (by decide))), rfl⟩
  | cons field fields ih =>
      have hlength := congrArg List.length (toList_renderFields_cons field fields)
      simp only [List.length_append, List.length_cons, String.length_toList] at hlength
      obtain ⟨groups, hgroups, hfields⟩ := ih (fun other hother =>
        h other (List.mem_cons_of_mem _ hother)) (steps_lt_of_le hdepth (by omega))
      obtain ⟨member, hmember, hdeclares⟩ := (h field List.mem_cons_self).exists_typeMember
        (steps_lt_of_le hdepth (by omega)) (closes_renderFields fields rest) spaces_one
      refine ⟨[tokenItem [] .symbol ";", member] :: groups, ?_, ?_⟩
      · rw [toList_renderFields_cons, List.cons_append, List.cons_append, List.append_assoc]
        have hstep : furtherMember (.ofDepth depth) (.start (';' :: ' ' ::
            ((renderField field).toList ++ ((renderFields fields).toList ++ ' ' :: '\x7d' :: rest)))) =
              some ([tokenItem [] .symbol ";", member],
                .start ((renderFields fields).toList ++ ' ' :: '\x7d' :: rest)) :=
          (run_bind (separator_semicolon _)).trans ((run_bind hmember).trans rfl)
        refine (many_start (';' :: ' ' :: (renderField field).toList) hstep
          (List.cons_ne_nil _ _)).trans ?_
        rw [hgroups]
        rfl
      · rw [List.flatten_cons, List.cons_append, declared_cons_token, List.cons_append,
          declared_cons hdeclares, List.nil_append, hfields]

/-! ### Records -/

theorem writtenType_objectType_branch (items : List Item) :
    writtenType (Item.branch .objectType items).node = .record (declared items) := by
  have hread : ∀ nodes : List Node, nodes.filterMap memberField? =
      (nodes.map memberField?).filterMap id := fun nodes => by
    rw [List.filterMap_map, Function.id_comp]
  rw [writtenType_objectType (by cases items <;> rfl), hread,
    namedChildren_branch memberField?_placedAt, ← hread]
  rfl

/-- An object type is read from the texts of its fields. -/
theorem exists_objectType {depth : Nat} (h : ∀ field ∈ fields, FieldReadAt field)
    (hdepth : stepsPerCharacter * (render (.record fields)).length < depth) (hblanks : Spaces blanks)
    (rest : List Char) :
    ∃ item, objectTypeOf (.ofDepth depth) .objectType
        (.start (blanks ++ ((render (.record fields)).toList ++ rest))) = some (item, .start rest) ∧
      Denotes (.record fields) item.node := by
  cases fields with
  | nil =>
      have hfaces : Faces (.start ('\x7d' :: rest)) '\x7d' := faces rest (by decide)
      have hmarks : (mark "," <|> mark ";" : Parse Item) (.start ('\x7d' :: rest)) = none :=
        (run_orElse_none (mark_refused hfaces (d := ',') (by decide) (by decide))).trans
          (mark_refused hfaces (d := ';') (by decide) (by decide))
      refine ⟨.branch .objectType [tokenItem blanks .symbol "\x7b", tokenItem [] .symbol "\x7d"],
        ?_, { isNamed := rfl, kind_ne := nofun, written := writtenType_objectType_branch _ }⟩
      refine (run_bind (mark_char hblanks (by decide) (by decide))).trans ?_
      refine (run_bind (run_optional_none hmarks)).trans ?_
      refine (run_bind (run_optional_none (typeMember_refused hfaces))).trans ?_
      refine (run_bind (p := pure []) rfl).trans ((run_bind (p := pure none) rfl).trans ?_)
      exact (run_bind (mark_char spaces_nil (by decide) (by decide))).trans rfl
  | cons field fields =>
      have hfield := h field List.mem_cons_self
      have htext : (render (.record (field :: fields))).toList = '\x7b' :: ' ' ::
          ((renderField field).toList ++ ((renderFields fields).toList ++ [' ', '\x7d'])) := by
        rw [render, String.toList_append, String.toList_append, String.toList_append]
        rfl
      have hlength := congrArg List.length htext
      simp only [List.length_append, List.length_cons, List.length_nil, String.length_toList] at hlength
      obtain ⟨member, hmember, hdeclares⟩ := hfield.exists_typeMember
        (steps_lt_of_le hdepth (by omega)) (closes_renderFields fields rest) spaces_one
      obtain ⟨groups, hgroups, hfields⟩ := exists_furtherMembers
        (fun other hother => h other (List.mem_cons_of_mem _ hother))
        (steps_lt_of_le hdepth (by omega)) rest
      have hopening : (mark "," <|> mark ";" : Parse Item) (.start ([' '] ++
          ((renderField field).toList ++ ((renderFields fields).toList ++ ' ' :: '\x7d' :: rest)))) =
            none := by
        rw [toList_renderField, List.append_assoc]
        exact (run_orElse_none (hfield.key.mark_refused spaces_one (d := ',') (by decide) (by decide)
          (by decide))).trans
          (hfield.key.mark_refused spaces_one (d := ';') (by decide) (by decide) (by decide))
      have hclosing : (mark "," <|> mark ";" : Parse Item) (.start (' ' :: '\x7d' :: rest)) = none :=
        have hfaces := faces_space rest (c := '\x7d') (by decide)
        (run_orElse_none (mark_refused hfaces (d := ',') (by decide) (by decide))).trans
          (mark_refused hfaces (d := ';') (by decide) (by decide))
      refine ⟨.branch .objectType (tokenItem blanks .symbol "\x7b" :: member :: (groups.flatten ++
        [tokenItem [' '] .symbol "\x7d"])), ?_, { isNamed := rfl, kind_ne := nofun, written := ?_ }⟩
      · rw [htext, List.cons_append, List.cons_append, List.append_assoc, List.append_assoc]
        refine (run_bind (mark_char hblanks (by decide) (by decide))).trans ?_
        refine (run_bind (run_optional_none hopening)).trans ?_
        refine (run_bind (run_optional hmember)).trans ((run_bind hgroups).trans ?_)
        refine (run_bind (run_optional_none hclosing)).trans ?_
        refine (run_bind (mark_char spaces_one (by decide) (by decide))).trans ?_
        show some (Item.branch .objectType ([_] ++ [] ++ [member] ++ groups.flatten ++ [] ++ [_]), _) = _
        rw [List.append_nil, List.append_nil, List.append_assoc, List.append_assoc]
        rfl
      · rw [writtenType_objectType_branch, declared_cons_token, declared_cons hdeclares,
          declared_concat_token, hfields]

theorem readAt_record (h : ∀ field ∈ fields, FieldReadAt field) (site : Site) :
    ReadAt site (render (.record fields)) (.record fields) := by
  have hopening : ∃ more, (render (.record fields)).toList = '\x7b' :: more := by
    cases fields with
    | nil => exact ⟨['\x7d'], rfl⟩
    | cons field fields =>
        rw [render, String.toList_append]
        exact ⟨_, rfl⟩
  obtain ⟨more, hmore⟩ := hopening
  have hbegins : Begins (render (.record fields)).toList := by
    rw [hmore]
    exact ⟨'\x7b', rfl, by decide, by decide⟩
  refine readAt_of_grows hbegins (fun depth boundary site rest hdepth _ blanks hblanks => ?_) site
  obtain ⟨item, hitem, hdenotes⟩ := exists_objectType h hdepth hblanks rest
  have hfaces : Faces (.start (blanks ++ ((render (.record fields)).toList ++ rest))) '\x7b' := by
    rw [hmore, List.cons_append]
    exact faces_start hblanks (by decide)
  have hparenthesized : parenthesizedType (.ofDepth depth)
      (.start (blanks ++ ((render (.record fields)).toList ++ rest))) = none :=
    run_bind_none (mark_refused hfaces (d := '(') (by decide) (by decide))
  refine ⟨item, unprefixed_of_mark hfaces (by decide) (by decide)
    (formalParameters_refused hfaces (by decide)), run_bind ?_, hdenotes⟩
  rw [primaryType_mark hfaces (by simp), run_orElse_none hparenthesized]
  exact run_orElse hitem

end RouteBinder.Analysis
