import RouteBinder.Proofs.Analysis.Renderings
import RouteBinder.Proofs.Grammar.Statements

/-!
# RouteBinder.Proofs.Analysis.RereadTypes

**Types that keep their meaning.** The text of a type is put into emitted code, where it is read again. Behind
`type T =`, the text of a legible type declares the type it was made from.

The text of a type that is not looked into may bind to what stands next to it: `() => A` takes the members
behind it for a part of its result, and `keyof A` the brackets. An array puts parentheses around its element
where its text asks for them, a union around none of its members.
-/

namespace RouteBinder.Analysis

open Source Grammar Parse TypeExpr

variable {inner : Inner} {type : TypeExpr} {text rest : List Char}

/-! ### Declarations of a type -/

/-- The type syntax on the right of a declaration, when a source begins with one. -/
def aliasNode? (source : String) : Option Node := do
  let program ← Grammar.parse? source
  let declaration ← program.firstNamed?
  declaration.field? .value

/-- The type that a source declares. -/
def aliasType? (source : String) : Option TypeExpr := (aliasNode? source).map writtenType

/-- A declaration of the type. -/
def aliasOf (type : TypeExpr) : String := "type T = " ++ (type.render ++ ";")

theorem toList_aliasOf (type : TypeExpr) :
    (aliasOf type).toList =
      "type".toList ++ (' ' :: 'T' :: ' ' :: '=' :: ' ' :: (type.render.toList ++ [';'])) := by
  rw [aliasOf, String.toList_append, String.toList_append]
  rfl

/-- The declaration that is read. -/
def aliasItem (type : Item) : Item :=
  .branch .typeAliasDeclaration [tokenItem [] .symbol "type",
    (tokenItem [' '] .typeIdentifier "T").as .name, tokenItem [' '] .symbol "=", type.as .value,
    tokenItem [] .symbol ";"]

theorem field?_aliasItem (type : Item) :
    ∃ place, (aliasItem type).node.field? .value = some (type.node.placedAt place) := by
  cases hfield : (aliasItem type).node.field? .value with
  | none =>
      have hmem : type.node.placedAt { gap := type.lead.gap, role := some .value } ∈
          (aliasItem type).node.children := by
        refine List.mem_cons_of_mem _ (List.mem_flatMap.2 ⟨type.as .value, by simp, ?_⟩)
        rw [Item.parts_eq]
        exact List.mem_append_right _ (List.mem_singleton_self _)
      have := List.find?_eq_none.1 hfield _ hmem
      rw [role_placedAt] at this
      exact absurd rfl this
  | some found =>
      obtain ⟨item, hitem, hrole, place, rfl⟩ := exists_of_field?_branch hfield
      simp only [List.mem_cons, List.not_mem_nil, or_false] at hitem
      rcases hitem with rfl | rfl | rfl | rfl | rfl
      · cases hrole
      · cases hrole
      · cases hrole
      · exact ⟨place, rfl⟩
      · cases hrole

/-- A declaration is read up to its semicolon. -/
theorem typeAliasDeclaration_start {item : Item}
    (h : inner.type .type (.start (' ' :: (text ++ ';' :: rest))) = some (item, .start (';' :: rest))) :
    typeAliasDeclaration inner
        (.start ("type".toList ++ (' ' :: 'T' :: ' ' :: '=' :: ' ' :: (text ++ ';' :: rest)))) =
      some (aliasItem item, .start rest) := by
  have hequals : Faces (.start (' ' :: '=' :: ' ' :: (text ++ ';' :: rest))) '=' :=
    faces_space _ (by decide)
  have hname : name .typeIdentifier (.start (' ' :: 'T' :: ' ' :: '=' :: ' ' :: (text ++ ';' :: rest))) =
      some (tokenItem [' '] .typeIdentifier "T", .start (' ' :: '=' :: ' ' :: (text ++ ';' :: rest))) :=
    @name_start [' '] ['T'] _ _ spaces_one (by decide) (by rintro c ⟨⟩; decide)
  refine (run_bind (@keyword_start [] _ "type" spaces_nil (by decide) (by rintro c ⟨⟩; decide))).trans ?_
  refine (run_bind hname).trans ?_
  refine (run_bind (run_optional_none (typeParameters_refused hequals (by decide)))).trans ?_
  refine (run_bind (mark_char spaces_one (by decide) (by decide))).trans ?_
  exact (run_bind h).trans ((run_bind (semicolon_start rest)).trans rfl)

/-- A source that declares the text of a type is one statement. -/
theorem parse?_aliasOf (h : ReadAt .whole type.render type) :
    ∃ item, Grammar.parse? (aliasOf type) = some (.branch {} .program (aliasItem item).parts) ∧
      Denotes type item.node := by
  have htext := toList_aliasOf type
  have hlength := congrArg List.length htext
  rw [String.length_toList, List.length_append] at hlength
  simp only [List.length_append, List.length_cons, List.length_nil, String.length_toList] at hlength
  have hword : IsWord "type".toList := by decide
  have hends : EndsName (' ' :: 'T' :: ' ' :: '=' :: ' ' :: (type.render.toList ++ [';'])) := by
    rintro c ⟨⟩
    decide
  obtain ⟨c, hc, hfaces, -⟩ := faces_word spaces_nil hword
    (' ' :: 'T' :: ' ' :: '=' :: ' ' :: (type.render.toList ++ [';']))
  have hname := nameAt_start spaces_nil hword hends
  rw [List.nil_append, ← htext] at hfaces hname
  obtain rfl : 't' = c := Option.some.inj hc
  have hdepth : stepsPerCharacter * type.render.length <
      stepsPerCharacter * (aliasOf type).length + 14 := by
    simp only [stepsPerCharacter]
    omega
  obtain ⟨item, hitem, hdenotes⟩ := h.reads _ .type _ hdepth (.whole (.semicolon [])) [' '] spaces_one
  have halias : typeAliasDeclaration (.ofDepth (stepsPerCharacter * (aliasOf type).length + 15))
      (.start (aliasOf type).toList) = some (aliasItem item, .start []) := by
    rw [htext]
    exact typeAliasDeclaration_start hitem
  have hline : hashBangLine (.start (aliasOf type).toList) = none := by
    obtain ⟨rest, hrest⟩ := hfaces
    refine (run_bind rfl).trans ?_
    rw [hrest]
    rfl
  have hmarks : ∀ sign ∈ [";", "\x7b", "@"], mark sign (.start (aliasOf type).toList) = none := by
    intro sign hsign
    simp only [List.mem_cons, List.not_mem_nil, or_false] at hsign
    rcases hsign with rfl | rfl | rfl
    · exact mark_refused hfaces (d := ';') (by decide) (by decide)
    · exact mark_refused hfaces (d := '\x7b') (by decide) (by decide)
    · exact mark_refused hfaces (d := '@') (by decide) (by decide)
  have hplain : plainDeclaration (.ofDepth (stepsPerCharacter * (aliasOf type).length + 15)) []
      (.start (aliasOf type).toList) = some (aliasItem item, .start []) := by
    rw [plainDeclaration_eq (by rw [hname, String.ofList_toList]; decide)]
    exact run_orElse halias
  refine ⟨item, parse?_statement (by rw [htext]; simp) hline ?_, hdenotes⟩
  rw [statementRule_eq (by rw [hname, String.ofList_toList]; decide) hmarks]
  exact run_orElse (run_orElse hplain)

/-- What is declared by the text of a type is the type. -/
theorem aliasType?_of_readAt (h : ReadAt .whole type.render type) :
    aliasType? (aliasOf type) = some type := by
  obtain ⟨item, hparse, hdenotes⟩ := parse?_aliasOf h
  obtain ⟨place, hvalue⟩ := field?_aliasItem item
  have hfirst : (Node.branch {} .program (aliasItem item).parts).firstNamed? =
      some ((aliasItem item).node.placedAt {}) := rfl
  have hnode : aliasNode? (aliasOf type) = some (item.node.placedAt place) := by
    rw [aliasNode?, hparse, Option.bind_eq_bind, Option.bind_some, hfirst,
      Option.bind_some, field?_placedAt, hvalue]
  rw [aliasType?, hnode, Option.map_some, writtenType_placedAt, hdenotes.written]

/-- The type that was read off a node is read again from its text, wherever the texts in it bind as they
should. -/
theorem aliasType?_aliasOf (node : Node) (h : Legible .whole (writtenType node)) :
    aliasType? (aliasOf (writtenType node)) = some (writtenType node) :=
  aliasType?_of_readAt (h.readAt (normal_writtenType node))

/-- Arrays of an element that may be missing. -/
def nullableList : TypeExpr := .array (.union [.named "Foo", .primitive "null"])

theorem legible_nullableList (site : Site) : Legible site nullableList := by
  have hnull : Legible .last (.primitive "null") := legible_of_mem_primitiveWords (by decide) .last
  have hopens : Enclosable (render (.union [.named "Foo", .primitive "null"])).toList :=
    @enclosable_of_word '|' "Foo".toList [' '] " null".toList (by decide) (by decide) spaces_one (by decide)
  refine .enclosed (by decide) hopens (.union (List.forall_mem_singleton.2 ?_) ?_)
  · exact .named (readAt_name (by decide) (by decide) .member)
  · exact fun _ h => Option.some.inj h ▸ hnull

/-- A record with such an array, beside a literal. -/
def taggedList : TypeExpr :=
  .union [.record [⟨"a-b", nullableList, true⟩, ⟨"n", .primitive "string", false⟩], .named "'x'"]

theorem legible_taggedList : Legible .whole taggedList := by
  have hstring : Legible .whole (.primitive "string") := legible_of_mem_primitiveWords (by decide) .whole
  have hnames : ∀ name ∈ ["a-b", "n"], Quotable name := by
    intro name hname c hc
    have hall : (["a-b", "n"].all fun name =>
        name.toList.all fun c => !(['\x27', '\\', '\n', '\r'].contains c)) = true := by
      decide
    have hplain := List.all_eq_true.1 (List.all_eq_true.1 hall name hname) c hc
    rwa [Bool.not_eq_true', ← Bool.not_eq_true, List.contains_iff_mem] at hplain
  have hfields := List.forall_mem_cons.2
    ⟨legible_nullableList .whole, List.forall_mem_singleton.2 hstring⟩
  refine .union (List.forall_mem_singleton.2 (.record (fun field hfield => ?_) fun field hfield => ?_)) ?_
  · exact hnames field.name (List.mem_map_of_mem (f := FieldOf.name) hfield)
  · exact hfields field.type (List.mem_map_of_mem (f := FieldOf.type) hfield)
  · exact fun _ h => Option.some.inj h ▸
      .named (@readAt_quoted ['x'] (List.forall_mem_singleton.2 (by decide)) .last)

/-- The parentheses in the array keep the union in it together. -/
theorem aliasType?_aliasOf_taggedList :
    ∃ node, aliasNode? "type X = \x7b 'a-b'?: (Foo | null)[]; n: string \x7d | 'x';\n" = some node ∧
      Legible .whole (writtenType node) ∧
      aliasType? (aliasOf (writtenType node)) = some (writtenType node) := by
  have hwritten : aliasType? "type X = \x7b 'a-b'?: (Foo | null)[]; n: string \x7d | 'x';\n" =
      some taggedList := by
    decide +kernel
  obtain ⟨node, hnode, htype⟩ := Option.map_eq_some_iff.1 hwritten
  have hlegible : Legible .whole (writtenType node) := htype ▸ legible_taggedList
  exact ⟨node, hnode, hlegible, aliasType?_aliasOf node hlegible⟩

/-- Parentheses around a member of a union are dropped, and then a function type takes the members behind it. -/
theorem aliasType?_ne_functionMember :
    ∃ node, aliasNode? "type X = (() => A) | B;\n" = some node ∧
      aliasType? (aliasOf (writtenType node)) ≠ some (writtenType node) := by
  have hwritten : aliasType? "type X = (() => A) | B;\n" =
      some (.union [.named "() => A", .named "B"]) := by
    decide +kernel
  have hread : aliasType? "type T = () => A | B;" = some (.named "() => A | B") := by
    decide +kernel
  obtain ⟨node, hnode, htype⟩ := Option.map_eq_some_iff.1 hwritten
  refine ⟨node, hnode, ?_⟩
  rw [htype]
  have hsource : aliasOf (.union [.named "() => A", .named "B"]) = "type T = () => A | B;" := by
    decide +kernel
  rw [hsource, hread]
  exact nofun

end RouteBinder.Analysis
