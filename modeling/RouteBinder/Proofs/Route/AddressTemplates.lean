import Mathlib.Data.List.Forall2
import RouteBinder.Proofs.Grammar.Tokens
import RouteBinder.Proofs.Keyed
import RouteBinder.Route.Address

/-!
# RouteBinder.Proofs.Route.AddressTemplates

**What the template of an address evaluates to.** A template literal is a list of parts: characters,
and substitutions of a name or of the elements of a list (`Part`). This module has

* `parts`, what the template of a place is meant to consist of; `toList_template` says that it is
  written out of them, and `names_parts` that they substitute the names bound along the way;
* `read?`, how a template literal is read: up to the closing mark, with `$` and a brace in front of a
  substitution, and with a carriage return read as a line feed;
* `read?_template`, that names without reserved characters and bound names that are words are read
  as the parts that were written;
* `evaluate?_template`, that in the scope of a call the literal is the address with the arguments in
  the place of the dynamic segments.
-/

namespace RouteBinder.Route

namespace Segment

/-- A name stands for one of five segments; the two that are dynamic bind a name. -/
theorem classify_cases (name : String) :
    (∃ param, classify name = ⟨name, .catchAll, some param⟩) ∨
      (∃ param, classify name = ⟨name, .dynamic, some param⟩) ∨
      classify name = ⟨name, .group, none⟩ ∨ classify name = ⟨name, .collector, none⟩ ∨
      classify name = ⟨name, .static, none⟩ := by
  unfold classify
  split
  · exact Or.inl ⟨_, rfl⟩
  · exact Or.inl ⟨_, rfl⟩
  · exact Or.inr (Or.inl ⟨_, rfl⟩)
  · exact Or.inr (Or.inr (Or.inl rfl))
  · split
    · exact Or.inr (Or.inr (Or.inr (Or.inl rfl)))
    · exact Or.inr (Or.inr (Or.inr (Or.inr rfl)))

/-- A visible segment stands for itself or binds a name. -/
theorem visible_cases {directories : List String} {segment : Segment}
    (h : segment ∈ visible directories) :
    (∃ param, segment = ⟨segment.name, .catchAll, some param⟩) ∨
      (∃ param, segment = ⟨segment.name, .dynamic, some param⟩) ∨
      segment = ⟨segment.name, .static, none⟩ := by
  obtain ⟨hmem, hshown⟩ := List.mem_filter.1 h
  obtain ⟨name, -, rfl⟩ := List.mem_map.1 hmem
  obtain ⟨param, hname⟩ | ⟨param, hname⟩ | hname | hname | hname := classify_cases name
  · rw [hname]
    exact Or.inl ⟨param, rfl⟩
  · rw [hname]
    exact Or.inr (Or.inl ⟨param, rfl⟩)
  · rw [hname] at hshown
    cases hshown
  · rw [hname] at hshown
    cases hshown
  · rw [hname]
    exact Or.inr (Or.inr rfl)

theorem isDynamic_of_isTransparent {segment : Segment} (h : segment.isTransparent = true) :
    segment.isDynamic = false := by
  obtain ⟨name, kind, param⟩ := segment
  cases kind <;> first | rfl | cases h

theorem paramType_of_isDynamic {segment : Segment} (h : segment.isDynamic = false) :
    segment.paramType = none := by
  obtain ⟨name, kind, param⟩ := segment
  cases kind <;> first | rfl | cases h

/-- What only dynamic segments have is had by visible segments. -/
theorem filterMap_visible {α : Type} {f : Segment → Option α}
    (hf : ∀ name, (classify name).isDynamic = false → f (classify name) = none)
    (directories : List String) :
    (visible directories).filterMap f = (directories.map classify).filterMap f := by
  induction directories with
  | nil => rfl
  | cons name rest ih =>
    rw [List.map_cons, visible, List.filter_cons]
    by_cases hempty : name = ""
    · have hnone : f (classify name) = none := hf name (by rw [hempty]; decide)
      rw [List.filterMap_cons_none hnone, ← ih, hempty]
      rfl
    · have hkept : (!name.isEmpty) = true := by simpa using hempty
      rw [if_pos hkept, List.map_cons, List.filter_cons]
      by_cases hshown : (!(classify name).isTransparent) = true
      · rw [if_pos hshown, List.filterMap_cons, List.filterMap_cons, ← ih]
        rfl
      · have hdynamic := isDynamic_of_isTransparent (by simpa using hshown)
        rw [if_neg hshown, List.filterMap_cons_none (hf name hdynamic), ← ih]
        rfl

theorem param_classify_of_isDynamic {name : String} (h : (classify name).isDynamic = false) :
    (classify name).param = none := by
  obtain ⟨param, hname⟩ | ⟨param, hname⟩ | hname | hname | hname := classify_cases name
  · rw [hname] at h
    cases h
  · rw [hname] at h
    cases h
  all_goals rw [hname]

/-- Segments that do not show up bind nothing. -/
theorem filterMap_param_visible (directories : List String) :
    (visible directories).filterMap param = Address.params directories :=
  filterMap_visible (fun _ => param_classify_of_isDynamic) directories

end Segment

namespace Address

open Grammar

/-! ### Parts -/

/-- A part of a template literal. -/
inductive Part where
  | char (c : Char)
  /-- The value of a name. -/
  | value (name : String)
  /-- The elements of a list, with slashes between them. -/
  | joined (name : String)
  deriving DecidableEq, Repr

/-- What asks for the elements of a list. -/
def joiner : List Char := ".join(\"/\")".toList

/-- The text of a part. -/
def Part.render : Part → List Char
  | .char c => [c]
  | .value name => '$' :: '\x7b' :: (name.toList ++ ['\x7d'])
  | .joined name => '$' :: '\x7b' :: (name.toList ++ joiner ++ ['\x7d'])

/-- The names that a part substitutes. -/
def Part.names : Part → List String
  | .char _ => []
  | .value name | .joined name => [name]

/-- The parts for a segment. -/
def segmentParts (segment : Segment) : List Part :=
  match segment.kind, segment.param with
  | .catchAll, some param => [.joined param]
  | .dynamic, some param => [.value param]
  | _, _ => segment.name.toList.map .char

/-- The parts of the template of a place. -/
def parts (directories : List String) : List Part :=
  .char '/' :: [.char '/'].intercalate ((Segment.visible directories).map segmentParts)

theorem flatMap_intercalate {α β : Type} (f : α → List β) (mark : List α) :
    ∀ pieces : List (List α), (mark.intercalate pieces).flatMap f =
      (mark.flatMap f).intercalate (pieces.map (List.flatMap f))
  | [] => rfl
  | [piece] => by simp only [List.map_cons, List.map_nil, List.intercalate_singleton]
  | piece :: next :: rest => by
    rw [List.intercalate_cons_cons, List.flatMap_append, List.flatMap_append,
      flatMap_intercalate f mark (next :: rest)]
    exact List.intercalate_cons_cons.symm

theorem flatMap_render_chars (text : List Char) :
    (text.map Part.char).flatMap Part.render = text := by
  rw [List.flatMap_map]
  exact List.flatMap_singleton' text

theorem toList_templatePart {directories : List String} {segment : Segment}
    (h : segment ∈ Segment.visible directories) :
    (templatePart segment).toList = (segmentParts segment).flatMap Part.render := by
  have hopening : "$\x7b".toList = ['$', '\x7b'] := rfl
  obtain ⟨param, hsegment⟩ | ⟨param, hsegment⟩ | hsegment := Segment.visible_cases h
  · have hclosing : ".join(\"/\")\x7d".toList = joiner ++ ['\x7d'] := rfl
    rw [hsegment]
    simp only [templatePart, segmentParts, String.toList_append, hopening, hclosing,
      Option.getD_some, List.flatMap_singleton, Part.render, List.cons_append, List.nil_append,
      List.append_assoc]
  · have hclosing : "\x7d".toList = ['\x7d'] := rfl
    rw [hsegment]
    simp only [templatePart, segmentParts, String.toList_append, hopening, hclosing,
      Option.getD_some, List.flatMap_singleton, Part.render, List.cons_append, List.nil_append]
  · rw [hsegment, templatePart, segmentParts, flatMap_render_chars]

/-- The template of a place is written out of its parts. -/
theorem toList_template (directories : List String) :
    (template directories).toList =
      '\x60' :: ((parts directories).flatMap Part.render ++ ['\x60']) := by
  have hpieces : ((Segment.visible directories).map templatePart).map String.toList =
      ((Segment.visible directories).map segmentParts).map (List.flatMap Part.render) := by
    rw [List.map_map, List.map_map]
    exact List.map_congr_left fun segment h => toList_templatePart h
  rw [template, String.toList_append, String.toList_append, String.toList_intercalate, hpieces,
    parts, List.flatMap_cons, flatMap_intercalate]
  rfl

theorem nil_intercalate {α : Type} : ∀ pieces : List (List α),
    ([] : List α).intercalate pieces = pieces.flatten
  | [] => rfl
  | [piece] => by rw [List.intercalate_singleton, List.flatten_singleton]
  | piece :: next :: rest => by
    rw [List.intercalate_cons_cons, nil_intercalate (next :: rest), List.append_nil]
    exact List.flatten_cons.symm

/-- The template of a place substitutes the names bound along the way, in order. -/
theorem names_parts (directories : List String) :
    (parts directories).flatMap Part.names = params directories := by
  have hpieces : ((Segment.visible directories).map segmentParts).map (List.flatMap Part.names) =
      (Segment.visible directories).map (Option.toList ∘ Segment.param) := by
    rw [List.map_map]
    refine List.map_congr_left fun segment h => ?_
    obtain ⟨param, hsegment⟩ | ⟨param, hsegment⟩ | hsegment := Segment.visible_cases h
    · rw [hsegment]
      rfl
    · rw [hsegment]
      rfl
    · rw [hsegment, Function.comp_apply, segmentParts, List.flatMap_map]
      exact List.flatMap_eq_nil_iff.2 fun c _ => rfl
  rw [parts, List.flatMap_cons, flatMap_intercalate, hpieces, ← Segment.filterMap_param_visible,
    List.filterMap_eq_flatMap_toList]
  exact nil_intercalate _

/-! ### Reading -/

/-- Characters that do not stand for themselves everywhere in a template literal: the closing mark,
the start of an escape, the start of a substitution, and the carriage return, which is read as a line
feed. -/
def isReserved (c : Char) : Bool := c == '\x60' || c == '\\' || c == '$' || c == '\r'

/-- The part that a substitution of this text is. -/
def substitution? (text : List Char) : Option Part :=
  let name := nameAt text
  if name.isEmpty then none
  else if text.drop name.length = [] then some (.value (String.ofList name))
  else if text.drop name.length = joiner then some (.joined (String.ofList name))
  else none

/-- The parts of a template literal, read behind its opening mark, or else inside a substitution of
which some characters have been read. Escapes and other substitutions are not read. -/
def readFrom? : Option (List Char) → List Char → Option (List Part)
  | _, [] => none
  | some text, '\x7d' :: rest =>
    (substitution? text).bind fun part => (readFrom? none rest).map (part :: ·)
  | some text, c :: rest => readFrom? (some (text ++ [c])) rest
  | none, ['\x60'] => some []
  | none, '\x60' :: _ => none
  | none, '\\' :: _ => none
  | none, '$' :: '\x7b' :: rest => readFrom? (some []) rest
  | none, '\r' :: '\n' :: rest => (readFrom? none rest).map (.char '\n' :: ·)
  | none, '\r' :: rest => (readFrom? none rest).map (.char '\n' :: ·)
  | none, c :: rest => (readFrom? none rest).map (.char c :: ·)

/-- The parts of a template literal. -/
def read? (literal : String) : Option (List Part) :=
  match literal.toList with
  | '\x60' :: rest => readFrom? none rest
  | _ => none

/-- The part is read as it is written. -/
def Part.Readable : Part → Prop
  | .char c => isReserved c = false
  | .value name | .joined name => IsWord name.toList

theorem readFrom?_substitution {text : List Char} (h : '\x7d' ∉ text) (before rest : List Char) :
    readFrom? (some before) (text ++ '\x7d' :: rest) =
      (substitution? (before ++ text)).bind fun part => (readFrom? none rest).map (part :: ·) := by
  induction text generalizing before with
  | nil =>
    rw [List.append_nil]
    rfl
  | cons c text ih =>
    rw [List.mem_cons, not_or] at h
    rw [List.cons_append, readFrom?, ih h.2, List.append_assoc]
    · rfl
    · exact fun heq => h.1 heq.symm

theorem readFrom?_char {c : Char} (h : isReserved c = false) (rest : List Char) :
    readFrom? none (c :: rest) = (readFrom? none rest).map (.char c :: ·) := by
  simp only [isReserved, Bool.or_eq_false_iff, beq_eq_false_iff_ne, ne_eq] at h
  obtain ⟨⟨⟨hmark, hescape⟩, hdollar⟩, hreturn⟩ := h
  rw [readFrom?]
  · exact fun heq _ => hmark heq
  · exact hmark
  · exact hescape
  · exact fun _ heq _ => hdollar heq
  · exact fun _ heq _ => hreturn heq
  · exact hreturn

theorem substitution?_word {name after : List Char} (h : IsWord name) (hafter : EndsName after) :
    substitution? (name ++ after) =
      if after = [] then some (.value (String.ofList name))
      else if after = joiner then some (.joined (String.ofList name))
      else none := by
  obtain ⟨c, more, hname, -, -⟩ := id h
  have hne : name.isEmpty = false := by rw [hname]; rfl
  simp only [substitution?, nameAt_word h hafter, hne, List.drop_left, Bool.false_eq_true, if_false]

theorem substitution?_value {name : List Char} (h : IsWord name) :
    substitution? name = some (.value (String.ofList name)) := by
  have := substitution?_word h (show EndsName [] from nofun)
  rwa [List.append_nil] at this

theorem substitution?_joined {name : List Char} (h : IsWord name) :
    substitution? (name ++ joiner) = some (.joined (String.ofList name)) := by
  have hdot : isNameChar '.' = false := by decide
  rw [substitution?_word h fun c hc => by cases hc; exact hdot]
  rfl

theorem brace_notMem {name : List Char} (h : IsWord name) : '\x7d' ∉ name := by
  obtain ⟨c, more, rfl, hstart, hmore⟩ := h
  have hbrace : isNameChar '\x7d' = false := by decide
  rw [List.mem_cons, not_or]
  constructor
  · rintro rfl
    rw [isNameStart, hbrace] at hstart
    cases hstart
  · intro hmem
    rw [hmore _ hmem] at hbrace
    cases hbrace

/-- A readable part is read. -/
theorem readFrom?_render {part : Part} (h : part.Readable) (rest : List Char) :
    readFrom? none (part.render ++ rest) = (readFrom? none rest).map (part :: ·) := by
  cases part with
  | char c => exact readFrom?_char h rest
  | value name =>
    rw [Part.Readable] at h
    rw [Part.render, List.cons_append, List.cons_append, List.append_assoc]
    have := readFrom?_substitution (brace_notMem h) [] rest
    rw [List.nil_append, substitution?_value h, String.ofList_toList] at this
    exact this
  | joined name =>
    rw [Part.Readable] at h
    rw [Part.render, List.cons_append, List.cons_append, List.append_assoc]
    have hbrace : '\x7d' ∉ name.toList ++ joiner := by
      rw [List.mem_append, not_or]
      exact ⟨brace_notMem h, by decide⟩
    have := readFrom?_substitution hbrace [] rest
    rw [List.nil_append, substitution?_joined h, String.ofList_toList] at this
    exact this

theorem readFrom?_parts : ∀ {written : List Part}, (∀ part ∈ written, part.Readable) →
    readFrom? none (written.flatMap Part.render ++ ['\x60']) = some written
  | [], _ => rfl
  | part :: written, h => by
    rw [List.flatMap_cons, List.append_assoc, readFrom?_render (h part List.mem_cons_self),
      readFrom?_parts fun other hother => h other (List.mem_cons_of_mem _ hother)]
    rfl

/-- What holds of the separator and of all pieces holds of the joined list. -/
theorem forall_mem_intercalate {α : Type} {P : α → Prop} {mark : List α}
    (hmark : ∀ a ∈ mark, P a) :
    ∀ {pieces : List (List α)}, (∀ piece ∈ pieces, ∀ a ∈ piece, P a) →
      ∀ a ∈ mark.intercalate pieces, P a
  | [], _ => nofun
  | [piece], h => by
    rw [List.intercalate_singleton]
    exact h piece List.mem_cons_self
  | piece :: next :: rest, h => by
    rw [List.intercalate_cons_cons, List.append_assoc]
    simp only [List.mem_append]
    rintro a (ha | ha | ha)
    · exact h piece List.mem_cons_self a ha
    · exact hmark a ha
    · exact forall_mem_intercalate hmark
        (fun other hother => h other (List.mem_cons_of_mem _ hother)) a ha

/-- The names that are written into the template are free of reserved characters, and the names that
it substitutes are words. -/
structure Legible (directories : List String) : Prop where
  static : ∀ segment ∈ Segment.visible directories, segment.isDynamic = false →
    segment.name.toList.any isReserved = false
  isWord : ∀ name ∈ params directories, IsWord name.toList

theorem Legible.readable {directories : List String} (h : Legible directories) :
    ∀ part ∈ parts directories, part.Readable := by
  have hslash : isReserved '/' = false := by decide
  rw [parts, List.forall_mem_cons]
  refine ⟨hslash, forall_mem_intercalate ?_ ?_⟩
  · rwa [List.forall_mem_singleton]
  rw [List.forall_mem_map]
  intro segment hsegment
  have hbound : ∀ param, segment.param = some param → IsWord param.toList := fun param hparam =>
    h.isWord param (Segment.filterMap_param_visible directories ▸
      List.mem_filterMap.2 ⟨segment, hsegment, hparam⟩)
  obtain ⟨param, hcases⟩ | ⟨param, hcases⟩ | hcases := Segment.visible_cases hsegment
  · rw [hcases] at hbound ⊢
    exact List.forall_mem_singleton.2 (hbound param rfl)
  · rw [hcases] at hbound ⊢
    exact List.forall_mem_singleton.2 (hbound param rfl)
  · have hstatic := h.static segment hsegment
    rw [hcases] at hstatic ⊢
    rw [segmentParts, List.forall_mem_map]
    intro c hc
    exact Bool.eq_false_iff.2 (List.any_eq_false.1 (hstatic rfl) c hc)

/-- A legible template is read as the parts that it is written out of. -/
theorem read?_template {directories : List String} (h : Legible directories) :
    read? (template directories) = some (parts directories) := by
  rw [read?, toList_template]
  exact readFrom?_parts h.readable

/-! ### Evaluating -/

/-- What an accessor function is called with. -/
inductive Argument where
  | text (value : String)
  | list (values : List String)
  deriving DecidableEq, Repr

/-- The type of an argument, as accessor functions write it. -/
def Argument.type : Argument → String
  | .text _ => "string"
  | .list _ => "string[]"

theorem Argument.exists_text {argument : Argument} (h : argument.type = "string") :
    ∃ value, argument = .text value := by
  cases argument with
  | text value => exact ⟨value, rfl⟩
  | list values =>
    have : "string[]" ≠ "string" := by decide
    exact absurd h this

theorem Argument.exists_list {argument : Argument} (h : argument.type = "string[]") :
    ∃ values, argument = .list values := by
  cases argument with
  | text value =>
    have : "string" ≠ "string[]" := by decide
    exact absurd h this
  | list values => exact ⟨values, rfl⟩

/-- The scope inside of accessor functions that bind these names, the innermost first. -/
def scope (names : List String) (arguments : List Argument) : List (String × Argument) :=
  (names.zip arguments).reverse

/-- The value of a part: a name needs a text, and joining needs a list. -/
def Part.value? (scope : List (String × Argument)) : Part → Option (List Char)
  | .char c => some [c]
  | .value name =>
    match scope.lookup name with
    | some (.text content) => some content.toList
    | _ => none
  | .joined name =>
    match scope.lookup name with
    | some (.list elements) => some (String.intercalate "/" elements).toList
    | _ => none

/-- The value of a list of parts. -/
def valueOfParts? (scope : List (String × Argument)) (written : List Part) : Option (List Char) :=
  (written.mapM (Part.value? scope)).map List.flatten

/-- The value of a template literal in a scope. -/
def evaluate? (scope : List (String × Argument)) (literal : String) : Option String :=
  ((read? literal).bind (valueOfParts? scope)).map String.ofList

/-- The components of an address, with arguments in the place of the dynamic segments. -/
def components : List Segment → List Argument → List String
  | [], _ => []
  | segment :: rest, arguments =>
    match segment.kind, arguments with
    | .dynamic, .text value :: others => value :: components rest others
    | .catchAll, .list values :: others => String.intercalate "/" values :: components rest others
    | _, _ => segment.name :: components rest arguments

/-- The address of a place, with arguments in the place of its dynamic segments. -/
def filled (directories : List String) (arguments : List Argument) : String :=
  "/" ++ String.intercalate "/" (components (Segment.visible directories) arguments)

section
variable {names : List String} {arguments : List Argument} {bound : List (String × Argument)}

theorem valueOfParts?_append {first second : List Part} {text text' : List Char}
    (h : valueOfParts? bound first = some text) (h' : valueOfParts? bound second = some text') :
    valueOfParts? bound (first ++ second) = some (text ++ text') := by
  obtain ⟨values, hvalues, rfl⟩ := Option.map_eq_some_iff.1 h
  obtain ⟨values', hvalues', rfl⟩ := Option.map_eq_some_iff.1 h'
  rw [valueOfParts?, List.mapM_append, hvalues, hvalues']
  exact congrArg some List.flatten_append

theorem valueOfParts?_singleton {part : Part} {text : List Char}
    (h : part.value? bound = some text) : valueOfParts? bound [part] = some text := by
  rw [valueOfParts?, List.mapM_cons, h]
  exact congrArg some (List.flatten_singleton)

theorem valueOfParts?_char_cons {written : List Part} {text : List Char} (c : Char)
    (h : valueOfParts? bound written = some text) :
    valueOfParts? bound (.char c :: written) = some (c :: text) :=
  have hchar : (Part.char c).value? bound = some [c] := rfl
  valueOfParts?_append (valueOfParts?_singleton hchar) h

theorem valueOfParts?_chars : ∀ text : List Char,
    valueOfParts? bound (text.map .char) = some text
  | [] => rfl
  | c :: text => valueOfParts?_char_cons c (valueOfParts?_chars text)

/-- Pieces with slashes between them have their values with slashes between them as their value. -/
theorem valueOfParts?_intercalate : ∀ {pieces : List (List Part)} {texts : List (List Char)},
    List.Forall₂ (fun piece text => valueOfParts? bound piece = some text) pieces texts →
      valueOfParts? bound ([.char '/'].intercalate pieces) = some (['/'].intercalate texts)
  | _, _, .nil => rfl
  | _, _, .cons h .nil => by
    rwa [List.intercalate_singleton, List.intercalate_singleton]
  | _, _, .cons h (.cons hnext hrest) => by
    rw [List.intercalate_cons_cons, List.intercalate_cons_cons]
    exact valueOfParts?_append (valueOfParts?_append h rfl)
      (valueOfParts?_intercalate (.cons hnext hrest))

theorem lookup_eq_some_of_mem : ∀ {bound : List (String × Argument)},
    (bound.map Prod.fst).Nodup → ∀ {name : String} {argument : Argument},
    (name, argument) ∈ bound → bound.lookup name = some argument
  | (other, value) :: bound, hnodup, name, argument, h => by
    rw [List.map_cons, List.nodup_cons] at hnodup
    rw [Keyed.lookup_cons]
    obtain heq | hmem := List.mem_cons.1 h
    · cases heq
      exact if_pos rfl
    · rw [if_neg, lookup_eq_some_of_mem hnodup.2 hmem]
      rintro rfl
      exact hnodup.1 (List.mem_map.2 ⟨_, hmem, rfl⟩)

/-- In the scope of a call, names that are distinct stand for the arguments in their order. -/
theorem lookup_scope (hnodup : names.Nodup) (hlength : names.length = arguments.length)
    {binding : String × Argument} (h : binding ∈ names.zip arguments) :
    (scope names arguments).lookup binding.1 = some binding.2 := by
  refine lookup_eq_some_of_mem ?_ (List.mem_reverse.2 h)
  rwa [scope, List.map_reverse, (List.reverse_perm _).nodup_iff, List.map_fst_zip hlength.le]

/-- The pieces for visible segments have the components as their values. -/
theorem valueOfParts?_segments : ∀ {segments : List Segment} {arguments : List Argument},
    (∀ segment ∈ segments, ∃ directories, segment ∈ Segment.visible directories) →
    arguments.map Argument.type = segments.filterMap Segment.paramType →
    (∀ binding ∈ (segments.filterMap Segment.param).zip arguments,
      bound.lookup binding.1 = some binding.2) →
    List.Forall₂ (fun piece text => valueOfParts? bound piece = some text)
      (segments.map segmentParts) ((components segments arguments).map String.toList)
  | [], _, _, _, _ => .nil
  | segment :: rest, arguments, hvisible, htypes, hbound => by
    rw [List.forall_mem_cons] at hvisible
    obtain ⟨⟨directories, hsegment⟩, hrest⟩ := hvisible
    obtain ⟨param, hcases⟩ | ⟨param, hcases⟩ | hcases := Segment.visible_cases hsegment
    · rw [hcases] at htypes hbound ⊢
      obtain ⟨argument, others, rfl, htype, hothers⟩ := List.map_eq_cons_iff.1 htypes
      obtain ⟨values, rfl⟩ := Argument.exists_list htype
      have hvalue : bound.lookup param = some (.list values) :=
        hbound (param, .list values) List.mem_cons_self
      refine .cons (valueOfParts?_singleton ?_) (valueOfParts?_segments hrest hothers ?_)
      · rw [Part.value?, hvalue]
      · exact fun binding hbinding => hbound binding (List.mem_cons_of_mem _ hbinding)
    · rw [hcases] at htypes hbound ⊢
      obtain ⟨argument, others, rfl, htype, hothers⟩ := List.map_eq_cons_iff.1 htypes
      obtain ⟨value, rfl⟩ := Argument.exists_text htype
      have hvalue : bound.lookup param = some (.text value) :=
        hbound (param, .text value) List.mem_cons_self
      refine .cons (valueOfParts?_singleton ?_) (valueOfParts?_segments hrest hothers ?_)
      · rw [Part.value?, hvalue]
      · exact fun binding hbinding => hbound binding (List.mem_cons_of_mem _ hbinding)
    · rw [hcases] at htypes hbound ⊢
      exact .cons (valueOfParts?_chars _) (valueOfParts?_segments hrest htypes hbound)

end

/-- Exactly the dynamic segments have a type. -/
theorem length_filterMap_paramType (directories : List String) :
    ((Segment.visible directories).filterMap Segment.paramType).length =
      (params directories).length := by
  rw [← Segment.filterMap_param_visible, List.length_filterMap_eq_countP,
    List.length_filterMap_eq_countP]
  refine List.countP_congr fun segment h => ?_
  obtain ⟨param, hcases⟩ | ⟨param, hcases⟩ | hcases := Segment.visible_cases h
  all_goals
    rw [hcases]
    rfl

/-- In the scope of a call with arguments of the right types, a legible template whose bound names are
distinct is the address with the arguments in the place of the dynamic segments. -/
theorem evaluate?_template {directories : List String} {arguments : List Argument}
    (h : Legible directories) (hnodup : (params directories).Nodup)
    (htypes : arguments.map Argument.type =
      (Segment.visible directories).filterMap Segment.paramType) :
    evaluate? (scope (params directories) arguments) (template directories) =
      some (filled directories arguments) := by
  have hlength : (params directories).length = arguments.length := by
    rw [← length_filterMap_paramType, ← htypes, List.length_map]
  have hbound : ∀ binding ∈ (params directories).zip arguments,
      (scope (params directories) arguments).lookup binding.1 = some binding.2 :=
    fun binding => lookup_scope hnodup hlength
  rw [← Segment.filterMap_param_visible] at hbound
  have hpieces :=
    valueOfParts?_segments (fun segment hsegment => ⟨directories, hsegment⟩) htypes hbound
  have hvalue := valueOfParts?_char_cons '/' (valueOfParts?_intercalate hpieces)
  have hfilled : '/' :: ['/'].intercalate
      ((components (Segment.visible directories) arguments).map String.toList) =
      (filled directories arguments).toList := by
    rw [filled, String.toList_append, String.toList_intercalate]
    rfl
  rw [Segment.filterMap_param_visible, hfilled] at hvalue
  rw [evaluate?, read?_template h, Option.bind_some, parts, hvalue, Option.map_some,
    String.ofList_toList]

end Address

end RouteBinder.Route
