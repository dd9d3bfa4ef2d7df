import Mathlib.Data.List.Nodup
import RouteBinder.Analysis.WrittenType
import RouteBinder.Proofs.Text.Margins

/-!
# RouteBinder.Proofs.Analysis.NormalTypes

**Types in normal form.** What is read off type syntax is always in normal form (`normal_writtenType`): a
union has at least two members, no two of them alike, none of them a union or unknown, and the names of
fields have no quotes at their ends. So a union that is put together again from its members one by one is
the same union (`unionOf_concat`).
-/

namespace RouteBinder.TypeExpr

open Text

variable {type member : TypeExpr} {types members : List TypeExpr} {α : Type} [DecidableEq α]

/-! ### Repetitions -/

theorem foldl_distinct (xs kept : List α) (hkept : kept.Nodup) :
    (xs.foldl (fun kept x => if x ∈ kept then kept else kept ++ [x]) kept).Nodup ∧
      ∀ x ∈ xs.foldl (fun kept x => if x ∈ kept then kept else kept ++ [x]) kept,
        x ∈ kept ∨ x ∈ xs := by
  induction xs generalizing kept with
  | nil => exact ⟨hkept, fun x h => Or.inl h⟩
  | cons first rest ih =>
      rw [List.foldl_cons]
      split
      · obtain ⟨hnodup, hmem⟩ := ih kept hkept
        exact ⟨hnodup, fun x h => (hmem x h).imp_right (List.mem_cons_of_mem _)⟩
      · rename_i hfirst
        obtain ⟨hnodup, hmem⟩ := ih (kept ++ [first])
          (List.concat_eq_append ▸ hkept.concat hfirst)
        refine ⟨hnodup, fun x h => ?_⟩
        rcases hmem x h with h | h
        · rcases List.mem_append.1 h with h | h
          · exact Or.inl h
          · exact Or.inr (List.mem_singleton.1 h ▸ List.mem_cons_self)
        · exact Or.inr (List.mem_cons_of_mem _ h)

theorem nodup_distinct (xs : List α) : (distinct xs).Nodup :=
  (foldl_distinct xs [] List.nodup_nil).1

theorem mem_of_mem_distinct {xs : List α} {x : α} (h : x ∈ distinct xs) : x ∈ xs :=
  ((foldl_distinct xs [] List.nodup_nil).2 x h).resolve_left List.not_mem_nil

/-- Nothing is dropped from a list without repetitions. -/
theorem distinct_of_nodup {xs : List α} (h : xs.Nodup) : distinct xs = xs := by
  have hfold : ∀ (rest kept : List α), (kept ++ rest).Nodup →
      rest.foldl (fun kept x => if x ∈ kept then kept else kept ++ [x]) kept = kept ++ rest := by
    intro rest
    induction rest with
    | nil => exact fun kept _ => (List.append_nil kept).symm
    | cons first rest ih =>
        intro kept hnodup
        have hfirst : first ∉ kept := fun hmem =>
          (List.nodup_append.1 hnodup).2.2 first hmem first List.mem_cons_self rfl
        rw [List.append_cons] at hnodup ⊢
        rw [List.foldl_cons, if_neg hfirst, ih _ hnodup]
  exact hfold xs [] h

/-! ### Unions -/

/-- What can be a member of a union. -/
structure IsMember (type : TypeExpr) : Prop where
  not_isUnknown : type.isUnknown = false
  members_eq : type.members = [type]

theorem flatMap_members (h : ∀ member ∈ members, member.IsMember) :
    members.flatMap TypeExpr.members = members := by
  induction members with
  | nil => rfl
  | cons first rest ih =>
      rw [List.flatMap_cons, (h first List.mem_cons_self).members_eq,
        ih fun member hmember => h member (List.mem_cons_of_mem _ hmember)]
      rfl

/-- The union of members that are put together from groups of members. -/
theorem unionOf_congr (h : types.flatMap TypeExpr.members = members.flatMap TypeExpr.members) :
    unionOf types = unionOf members := by
  rw [unionOf, unionOf, h]

/-- A union is put together from its members, unless it is a lone one. -/
theorem unionOf_members (h : ∀ member ∈ members, member.IsMember) (hnodup : members.Nodup)
    (hlength : 2 ≤ members.length) : unionOf members = .union members := by
  have hknown : members.any isUnknown = false := by
    rw [List.any_eq_false]
    exact fun member hmember => by rw [(h member hmember).not_isUnknown]; exact Bool.false_ne_true
  rw [unionOf, flatMap_members h, hknown, if_neg Bool.false_ne_true, distinct_of_nodup hnodup]
  match members with
  | [] => cases hlength
  | [_] => exact absurd hlength (Nat.not_succ_le_self 1)
  | _ :: _ :: _ => rfl

theorem unionOf_singleton (h : member.IsMember) : unionOf [member] = member := by
  have hparts : [member].flatMap TypeExpr.members = [member] :=
    flatMap_members (List.forall_mem_singleton.2 h)
  rw [unionOf, hparts, List.any_cons, h.not_isUnknown, List.any_nil, Bool.or_self,
    if_neg Bool.false_ne_true, distinct_of_nodup (List.nodup_singleton _)]

/-- One more member behind a union. -/
theorem unionOf_concat (h : ∀ member ∈ members, member.IsMember) (hnodup : members.Nodup)
    (hne : members ≠ []) : unionOf [unionOf members, member] = unionOf (members ++ [member]) := by
  have hunion : (unionOf members).members = members := by
    match members with
    | [] => exact absurd rfl hne
    | [only] =>
        have honly := List.forall_mem_singleton.1 h
        rw [unionOf_singleton honly, honly.members_eq]
    | first :: second :: rest => rw [unionOf_members h hnodup (by simp)]; rfl
  refine unionOf_congr ?_
  rw [List.flatMap_cons, hunion, List.flatMap_append, flatMap_members h]

/-- A union is unknown, one of the parts of its types, or made of several parts of which something is
known. -/
theorem unionOf_cases {motive : TypeExpr → Prop} (hunknown : motive .unknown)
    (hlone : ∀ part ∈ types.flatMap TypeExpr.members, motive part)
    (hunion : ∀ parts : List TypeExpr, 2 ≤ parts.length → parts.Nodup →
      (∀ part ∈ parts, part ∈ types.flatMap TypeExpr.members ∧ part.isUnknown = false) →
      motive (.union parts)) :
    motive (unionOf types) := by
  rw [unionOf]
  split
  · exact hunknown
  · rename_i hknown
    have hparts : ∀ part ∈ distinct (types.flatMap TypeExpr.members),
        part ∈ types.flatMap TypeExpr.members ∧ part.isUnknown = false := by
      intro part hpart
      have hmem := mem_of_mem_distinct hpart
      refine ⟨hmem, eq_false_of_ne_true ?_⟩
      intro hisUnknown
      exact hknown (List.any_eq_true.2 ⟨part, hmem, hisUnknown⟩)
    have hnodup := nodup_distinct (types.flatMap TypeExpr.members)
    split
    · exact hunknown
    · rename_i only honly
      rw [honly] at hparts
      exact hlone only (hparts only (List.mem_singleton_self _)).1
    · rename_i hnil hlone
      refine hunion _ ?_ hnodup hparts
      generalize distinct (types.flatMap TypeExpr.members) = members at hnil hlone
      match members with
      | [] => exact absurd rfl hnil
      | [only] => exact absurd rfl (hlone only)
      | first :: second :: rest => simp

/-! ### Normal forms -/

/-- Every union in the type, at any depth, has at least two members, no two of them alike and none of them a
union or unknown; and all names of fields are permitted. -/
inductive NormalOver (permitted : String → Prop) : TypeExpr → Prop where
  | unknown : NormalOver permitted .unknown
  | void : NormalOver permitted .void
  | primitive (name : String) : NormalOver permitted (.primitive name)
  | array {element : TypeExpr} (helement : NormalOver permitted element) :
      NormalOver permitted (.array element)
  | record {fields : List Field} (hnames : ∀ field ∈ fields, permitted field.name)
      (htypes : ∀ field ∈ fields, NormalOver permitted field.type) : NormalOver permitted (.record fields)
  | union {members : List TypeExpr} (hlength : 2 ≤ members.length) (hnodup : members.Nodup)
      (hmembers : ∀ member ∈ members, member.IsMember)
      (hnormal : ∀ member ∈ members, NormalOver permitted member) : NormalOver permitted (.union members)
  | named (text : String) : NormalOver permitted (.named text)

/-- Normal forms with names that have no quotes at their ends. -/
abbrev Normal : TypeExpr → Prop := NormalOver fun name => trimQuotes name = name

/-- Normal forms, whatever the names of fields. -/
abbrev Normalized : TypeExpr → Prop := NormalOver fun _ => True

theorem NormalOver.normalized {permitted : String → Prop} (h : NormalOver permitted type) :
    Normalized type := by
  induction h with
  | unknown => exact .unknown
  | void => exact .void
  | primitive name => exact .primitive name
  | array _ ih => exact .array ih
  | record _ _ ih => exact .record (fun _ _ => trivial) ih
  | union hlength hnodup hmembers _ ih => exact .union hlength hnodup hmembers ih
  | named text => exact .named text

theorem NormalOver.of_mem_members {permitted : String → Prop} (h : NormalOver permitted type)
    (hmember : member ∈ type.members) : NormalOver permitted member ∧ member.members = [member] := by
  cases h with
  | union hlength hnodup hmembers hnormal =>
      exact ⟨hnormal member hmember, (hmembers member hmember).members_eq⟩
  | unknown => exact List.mem_singleton.1 hmember ▸ ⟨.unknown, rfl⟩
  | void => exact List.mem_singleton.1 hmember ▸ ⟨.void, rfl⟩
  | primitive name => exact List.mem_singleton.1 hmember ▸ ⟨.primitive name, rfl⟩
  | array helement => exact List.mem_singleton.1 hmember ▸ ⟨.array helement, rfl⟩
  | record hnames htypes => exact List.mem_singleton.1 hmember ▸ ⟨.record hnames htypes, rfl⟩
  | named text => exact List.mem_singleton.1 hmember ▸ ⟨.named text, rfl⟩

/-- The union of types in normal form is in normal form. -/
theorem normal_unionOf {permitted : String → Prop} (h : ∀ type ∈ types, NormalOver permitted type) :
    NormalOver permitted (unionOf types) := by
  have hparts : ∀ part ∈ types.flatMap TypeExpr.members,
      NormalOver permitted part ∧ part.members = [part] := by
    intro part hpart
    obtain ⟨type, htype, hmem⟩ := List.mem_flatMap.1 hpart
    exact (h type htype).of_mem_members hmem
  refine unionOf_cases .unknown (fun part hpart => (hparts part hpart).1) ?_
  intro parts hlength hnodup hknown
  refine .union hlength hnodup (fun part hpart => ?_) fun part hpart => ?_
  · exact ⟨(hknown part hpart).2, (hparts part (hknown part hpart).1).2⟩
  · exact (hparts part (hknown part hpart).1).1

end RouteBinder.TypeExpr

namespace RouteBinder.Analysis

open Source Text TypeExpr

variable {node inner : Node}

/-! ### Written types, kind by kind -/

/-- Where a node stands makes no difference to its type. -/
theorem writtenType_placedAt (node : Node) (place : Place) :
    writtenType (node.placedAt place) = writtenType node := by
  cases node with
  | leaf => rw [writtenType.eq_def, writtenType.eq_def]; rfl
  | branch => rw [writtenType.eq_def, writtenType.eq_def]; rfl

theorem writtenType_typeClause (hkind : node.kind = .typeClause)
    (h : node.firstNamed? = some inner) : writtenType node = writtenType inner := by
  rw [writtenType.eq_def, hkind]
  dsimp only
  split
  · rename_i found
    rw [h] at found
    rw [Option.some.inj found]
  · rename_i found
    rw [h] at found
    cases found

theorem writtenType_parenthesizedType (hkind : node.kind = .parenthesizedType)
    (h : node.firstNamed? = some inner) : writtenType node = writtenType inner := by
  rw [writtenType.eq_def, hkind]
  dsimp only
  split
  · rename_i found
    rw [h] at found
    rw [Option.some.inj found]
  · rename_i found
    rw [h] at found
    cases found

theorem writtenType_arrayType (hkind : node.kind = .arrayType)
    (h : node.firstNamed? = some inner) : writtenType node = .array (writtenType inner) := by
  rw [writtenType.eq_def, hkind]
  dsimp only
  split
  · rename_i found
    rw [h] at found
    rw [Option.some.inj found]
  · rename_i found
    rw [h] at found
    cases found

theorem writtenType_unionType (hkind : node.kind = .unionType) :
    writtenType node = .unionOf (node.namedChildren.map writtenType) := by
  rw [writtenType.eq_def, hkind]
  exact congrArg unionOf (List.attach_map_val (f := writtenType))

/-- The field that a member of an object type declares. -/
def memberField? (member : Node) : Option Field :=
  if member.kind == .propertySignature then
    some ⟨trimQuotes (member.fieldText .name),
      ((member.field? .type).map writtenType).getD .unknown, member.children.any (·.isSymbol "?")⟩
  else none

theorem writtenType_objectType (hkind : node.kind = .objectType) :
    writtenType node = .record (node.namedChildren.filterMap memberField?) := by
  rw [writtenType.eq_def, hkind]
  dsimp only
  congr 1
  conv_rhs => rw [← List.attach_map_subtype_val node.namedChildren, List.filterMap_map]
  refine List.filterMap_congr fun ⟨member, hmember⟩ _ => ?_
  rw [Function.comp_apply, memberField?]
  cases member.field? .type <;> rfl

/-- There are no quotes left to trim. -/
theorem trimQuotes_trimQuotes (text : String) : trimQuotes (trimQuotes text) = trimQuotes text := by
  rw [trimQuotes, trimQuotes, String.toList_ofList]
  congr 1
  by_cases hnil : trimWhile (fun c => c == '\x27' || c == '\x22') text.toList = []
  · rw [hnil]
    rfl
  · exact (solid_trimWhile hnil).trimWhile_eq

/-- What is read off type syntax is in normal form. -/
theorem normal_writtenType (node : Node) : Normal (writtenType node) := by
  fun_induction writtenType node with
  | case1 _ _ _ _ ih => exact ih
  | case2 => exact .unknown
  | case3 _ _ _ _ ih => exact ih
  | case4 => exact .unknown
  | case5 => exact .unknown
  | case6 => exact .void
  | case7 => exact .primitive _
  | case8 _ _ _ _ ih => exact .array ih
  | case9 => exact .array .unknown
  | case10 node _ ih =>
      refine normal_unionOf fun type htype => ?_
      obtain ⟨⟨member, hmember⟩, -, rfl⟩ := List.mem_map.1 htype
      exact ih member hmember
  | case11 node hkind ih =>
      have hfields : ∀ field ∈ node.namedChildren.filterMap memberField?,
          trimQuotes field.name = field.name ∧ Normal field.type := by
        intro field hfield
        obtain ⟨member, hmember, hfound⟩ := List.mem_filterMap.1 hfield
        rw [memberField?] at hfound
        split at hfound
        · cases hfound
          refine ⟨trimQuotes_trimQuotes _, ?_⟩
          cases htype : member.field? .type with
          | none => exact .unknown
          | some type => exact ih member hmember type htype
        · cases hfound
      have hnormal : Normal (writtenType node) := by
        rw [writtenType_objectType hkind]
        exact .record (fun field h => (hfields field h).1) fun field h => (hfields field h).2
      rw [writtenType.eq_def, hkind] at hnormal
      exact hnormal
  | case12 => exact .primitive _
  | case13 => exact .primitive _
  | case14 => exact .named _
  | case15 _ _ _ _ _ ih => exact .array ih
  | case16 => exact .named _
  | case17 => exact .named _
  | case18 => exact .named _

end RouteBinder.Analysis
