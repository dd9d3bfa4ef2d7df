import RouteBinder.Body.Replay
import RouteBinder.Proofs.Source.Declarations
import RouteBinder.Proofs.Source.Exchanged

/-!
# RouteBinder.Proofs.Body.RouteNames

**Names in place of route parameters.** A read of a route parameter, `params.x`, becomes the name `x`, and
declarations that only take route parameters apart disappear, up to the names that differ. The block that
comes out is `named`; its text is what the rule writes (`text_named`).

The name `x` stands for the parameter of the accessor unless the block that comes out declares it around
the read. `captured_iff` says when this happens: another declaration of `x` stays around the read, or an
alias of another parameter is called `x`, or a read of the parameter is itself a target that a declaration
assigns.
-/

namespace RouteBinder.Body

open Source Node

variable {params name : String} {names : List String} {block : Node}

/-! ### What the rule replaces -/

/-- The names that remain of a pattern which takes route parameters apart, with the parameters that they
stand for. -/
def aliasPairs? (names : List String) : List Node → Option (List (String × String))
  | [] => some []
  | part :: rest =>
    if part.kind == .shorthandPropertyIdentifierPattern then
      if names.contains part.text then aliasPairs? names rest else none
    else if part.kind == .pairPattern then
      (part.field? .value).bind fun target =>
        if names.contains (Text.trimQuotes (part.fieldText .key)) && target.kind == .identifier then
          (aliasPairs? names rest).map ((target.text, Text.trimQuotes (part.fieldText .key)) :: ·)
        else none
    else none

/-- The names that remain of a declaration which only takes route parameters apart. -/
def declaredAliases? (params : String) (names : List String) (declaration : Node) :
    Option (List (String × String)) :=
  match declaration.declarators with
  | [declarator] =>
    match declarator.field? .name, declarator.field? .value with
    | some pattern, some value =>
      if pattern.kind == .identifier then
        match value.unwrap? with
        | some member =>
          if member.kind == .memberExpression &&
              (member.field? .object).any (isRouteParams params) &&
              member.fieldText .property == pattern.text && names.contains pattern.text then
            some []
          else none
        | none => none
      else if pattern.kind == .objectPattern && isRouteParams params value then
        aliasPairs? names pattern.namedChildren
      else none
    | _, _ => none
  | _ => none

/-- What the rule puts in place of a node. -/
inductive Replacement where
  /-- Declarations of names for route parameters. -/
  | aliases (pairs : List (String × String))
  /-- A route parameter. -/
  | parameter (name : String)
  deriving DecidableEq

namespace Replacement

/-- The declaration of another name for a route parameter. -/
def aliasLine (pair : String × String) : String := "const " ++ pair.1 ++ " = " ++ pair.2 ++ ";"

/-- The syntax of such a declaration. -/
def aliasParts (pair : String × String) : List Node :=
  [.leaf { gap := "\n", role := some .kind } .symbol "const", initialized pair.1 pair.2,
    .leaf {} .symbol ";"]

def text : Replacement → String
  | .aliases pairs => String.intercalate "\n" (pairs.map aliasLine)
  | .parameter name => name

/-- The syntax of a replacement. Several declarations are put into one node, so that no position
changes. -/
def node (place : Place) : Replacement → Node
  | .aliases pairs => .branch place .lexicalDeclaration (pairs.flatMap aliasParts)
  | .parameter name => .leaf place .identifier name

end Replacement

/-- What the rule puts in place of the node, if it replaces it. -/
def replacement? (params : String) (names : List String) (node : Node) : Option Replacement :=
  if node.isVariableDeclaration then (declaredAliases? params names node).map .aliases
  else if node.kind == .memberExpression && (node.field? .object).any (isRouteParams params) then
    if names.contains (node.fieldText .property) then some (.parameter (node.fieldText .property))
    else none
  else none

theorem aliasesOf?_eq (parts : List Node) :
    aliasesOf? names parts = (aliasPairs? names parts).map (List.map Replacement.aliasLine) := by
  induction parts with
  | nil => rfl
  | cons part rest ih =>
      rw [aliasesOf?, aliasPairs?]
      split
      · rename_i hkind
        rw [ih, if_pos (beq_iff_eq.2 hkind)]
        split <;> rfl
      · rename_i hkind
        rw [if_neg (by rw [hkind]; decide), if_pos (beq_iff_eq.2 hkind)]
        cases part.field? .value with
        | none => rfl
        | some target =>
            rw [ih, Option.bind_some]
            dsimp only
            split
            · rw [Option.map_map, Option.map_map]
              rfl
            · rfl
      · rename_i hshorthand hpair
        rw [if_neg (mt beq_iff_eq.1 hshorthand), if_neg (mt beq_iff_eq.1 hpair)]
        rfl

theorem routeParamsDeclaration?_eq (declaration : Node) :
    routeParamsDeclaration? params names declaration =
      (declaredAliases? params names declaration).map fun pairs =>
        (Replacement.aliases pairs).text := by
  rw [routeParamsDeclaration?, declaredAliases?]
  rcases declaration.declarators with _ | ⟨declarator, _ | ⟨_, _⟩⟩
  · rfl
  · dsimp only
    cases declarator.field? .name with
    | none => rfl
    | some pattern =>
        cases declarator.field? .value with
        | none => rfl
        | some value =>
            dsimp only
            split
            · cases value.unwrap? with
              | none => rfl
              | some member =>
                  dsimp only
                  split <;> rfl
            · split
              · rw [aliasesOf?_eq, Option.map_map]
                rfl
              · rfl
  · rfl

/-- The rule as a substitution. -/
def routeSubstitution (params : String) (names : List String) : Substitution := fun node _ =>
  (replacement? params names node).map Replacement.text

theorem substituteRouteParams_eq :
    substituteRouteParams params names = .ofSubstitution (routeSubstitution params names) := by
  have hsubstitution : ∀ node, (if node.isVariableDeclaration then
        routeParamsDeclaration? params names node
      else if node.kind == .memberExpression && (node.field? .object).any (isRouteParams params) then
        let property := node.fieldText .property
        if names.contains property then some property else none
      else none) = (replacement? params names node).map Replacement.text := by
    intro node
    rw [replacement?]
    split
    · rw [routeParamsDeclaration?_eq, Option.map_map]
      rfl
    · split
      · dsimp only
        split <;> rfl
      · rfl
  rw [substituteRouteParams]
  exact congrArg Rule.ofSubstitution (funext fun node => funext fun _ => hsubstitution node)

/-! ### The block that comes out -/

mutual
/-- The node with names in place of route parameters. -/
def named (params : String) (names : List String) : Node → Node
  | .leaf place kind text => .leaf place kind text
  | .branch place kind children =>
    match replacement? params names (.branch place kind children) with
    | some replacement => replacement.node place
    | none => .branch place kind (namedParts params names children)

def namedParts (params : String) (names : List String) : List Node → List Node
  | [] => []
  | part :: rest => named params names part :: namedParts params names rest
end

theorem namedParts_eq_map (parts : List Node) :
    namedParts params names parts = parts.map (named params names) := by
  induction parts with
  | nil => rfl
  | cons part rest ih => rw [namedParts, ih, List.map_cons]

theorem replacement?_leaf (place : Place) (kind : Kind) (text : String) :
    replacement? params names (.leaf place kind text) = none := by
  rw [replacement?]
  split
  · rfl
  · rw [show (Node.leaf place kind text).field? .object = none from rfl, Option.any_none,
      Bool.and_false]
    rfl

variable {node : Node} {replacement : Replacement}

/-- What the rule puts in place of nodes. -/
def routeExchange (params : String) (names : List String) : Exchange := fun node =>
  (replacement? params names node).map (·.node node.place)

theorem routeExchange_eq_none_iff :
    routeExchange params names node = none ↔ replacement? params names node = none :=
  Option.map_eq_none_iff

theorem routeExchange_of_replaced (h : replacement? params names node = some replacement) :
    routeExchange params names node = some (replacement.node node.place) := by
  rw [routeExchange, h]
  rfl

theorem placedAt_node (place : Place) :
    (replacement.node place).placedAt place = replacement.node place := by
  cases replacement <;> rfl

theorem named_eq_exchanged (node : Node) :
    named params names node = node.exchanged (routeExchange params names) := by
  cases h : replacement? params names node with
  | some replacement =>
      rw [exchanged_of_replaced (routeExchange_of_replaced h), placedAt_node]
      cases node with
      | leaf =>
          rw [replacement?_leaf] at h
          cases h
      | branch =>
          rw [named, h]
          rfl
  | none =>
      cases node with
      | leaf => rw [named, exchanged, routeExchange_eq_none_iff.2 h]
      | branch place kind children =>
          have hchildren : ∀ child ∈ children, named params names child =
              child.exchanged (routeExchange params names) := by
            intro child hchild
            have hsize : child.size < (branch place kind children).size := size_lt_of_mem hchild
            exact named_eq_exchanged child
          rw [named, h, exchanged, routeExchange_eq_none_iff.2 h]
          dsimp only
          rw [namedParts_eq_map, exchangedParts_eq_map, List.map_congr_left hchildren]
termination_by node.size

theorem named_eq : named params names = exchanged (routeExchange params names) :=
  funext named_eq_exchanged

theorem named_of_replaced (h : replacement? params names node = some replacement) :
    named params names node = replacement.node node.place := by
  rw [named_eq, exchanged_of_replaced (routeExchange_of_replaced h), placedAt_node]

theorem kind_named (h : replacement? params names node = none) :
    (named params names node).kind = node.kind := by
  rw [named_eq, kind_exchanged (routeExchange_eq_none_iff.2 h)]

theorem mem_of_replacement? (h : replacement? params names node = some (.parameter name)) :
    name ∈ names := by
  rw [replacement?] at h
  split at h
  · obtain ⟨_, -, h⟩ := Option.map_eq_some_iff.1 h
    cases h
  · split at h
    · split at h
      · rename_i hproperty
        cases h
        exact List.contains_iff_mem.1 hproperty
      · cases h
    · cases h

theorem textOfParts_aliasParts (pair : String × String) (rest : List Node) :
    textOfParts (Replacement.aliasParts pair ++ rest) true =
      Replacement.aliasLine pair ++ textOfParts rest false := by
  rw [← String.toList_inj]
  simp [Replacement.aliasParts, Replacement.aliasLine, initialized, textOfParts, text, gap,
    Node.place]

theorem textOfParts_aliases (pair : String × String) (pairs : List (String × String)) :
    textOfParts ((pair :: pairs).flatMap Replacement.aliasParts) true =
      String.intercalate "\n" ((pair :: pairs).map Replacement.aliasLine) := by
  induction pairs generalizing pair with
  | nil =>
      rw [List.flatMap_cons, textOfParts_aliasParts]
      exact String.append_empty
  | cons next rest ih =>
      have hgap : ∀ parts, textOfParts (Replacement.aliasParts next ++ parts) false =
          "\n" ++ textOfParts (Replacement.aliasParts next ++ parts) true := fun _ => rfl
      rw [List.flatMap_cons, textOfParts_aliasParts, List.flatMap_cons, hgap, ← List.flatMap_cons, ih,
        List.map_cons, List.map_cons, List.map_cons, String.intercalate_cons_cons, String.append_assoc]

theorem text_replacement (place : Place) : (replacement.node place).text = replacement.text := by
  cases replacement with
  | parameter => rfl
  | aliases pairs =>
      cases pairs with
      | nil => rfl
      | cons pair pairs => exact textOfParts_aliases pair pairs

/-- The text of the block that comes out is what the rule writes. -/
theorem text_named (node : Node) :
    (named params names node).text = splice (routeSubstitution params names) node := by
  have hsubstitution :
      routeSubstitution params names = (routeExchange params names).substitution := by
    refine funext fun node => funext fun write => ?_
    rw [routeSubstitution, Exchange.substitution, routeExchange, Option.map_map]
    exact congrArg (Option.map · _) (funext fun _ => (text_replacement _).symm)
  rw [named_eq, text_exchanged, hsubstitution]

/-! ### Positions in the block that comes out -/

theorem isSymbol_named (node : Node) (word : String) :
    (named params names node).isSymbol word = node.isSymbol word := by
  cases node with
  | leaf => rfl
  | branch place kind children =>
      rw [named]
      split
      · rename_i replacement _
        cases replacement <;> rfl
      · rfl

/-- What stays is the same to the scopes of names. -/
theorem alike_named (h : replacement? params names node = none) :
    node.Alike (named params names node) where
  kind := (kind_named h).symm
  role := by rw [named_eq, role_exchanged]
  loopWord := by
    rw [loopWord?, loopWord?, named_eq, field?_exchanged (routeExchange_eq_none_iff.2 h),
      Option.map_map, ← named_eq]
    congr 1
    funext child
    exact (isSymbol_named child "var").symm

/-- Nothing around the spot is replaced. -/
def Exposed (params : String) (names : List String) (spot : Spot) : Prop :=
  ∀ node ∈ spot.above, replacement? params names node = none

/-- The spot with the nodes that it becomes. -/
def namedSpot (params : String) (names : List String) (spot : Spot) : Spot :=
  { node := named params names spot.node, above := spot.above.map (named params names) }

variable {tree : Node} {spot : Spot} {position : Position}

theorem namedSpot_eq (spot : Spot) :
    namedSpot params names spot = spot.exchanged (routeExchange params names) := by
  rw [namedSpot, Spot.exchanged, named_eq]

theorem exposed_iff : Exposed params names spot ↔ spot.Exposed (routeExchange params names) :=
  forall₂_congr fun _ _ => routeExchange_eq_none_iff.symm

theorem spotAt?_named (h : tree.spotAt? position = some spot) (hexposed : Exposed params names spot) :
    (named params names tree).spotAt? position = some (namedSpot params names spot) := by
  rw [named_eq, namedSpot_eq]
  exact spotAt?_exchanged h (exposed_iff.1 hexposed)

/-- The position leads into the replacement of a node. -/
structure IntoReplacement (params : String) (names : List String) (tree : Node) (position : Position)
    (result : Spot) (around : Spot) (replacement : Replacement) (outer inner : Position)
    (part : Spot) : Prop where
  position_eq : position = outer ++ inner
  inner_ne : inner ≠ []
  around_at : tree.spotAt? outer = some around
  exposed : Exposed params names around
  replaced : replacement? params names around.node = some replacement
  part_at : (replacement.node around.node.place).spotAt? inner = some part
  result_eq : result =
    { node := part.node, above := part.above ++ around.above.map (named params names) }

/-- A position of the block that comes out is a position of the block, or leads into a replacement. -/
theorem exists_of_spotAt?_named {result : Spot}
    (h : (named params names tree).spotAt? position = some result) :
    (∃ spot, tree.spotAt? position = some spot ∧ Exposed params names spot ∧
        result = namedSpot params names spot) ∨
      ∃ around replacement outer inner part,
        IntoReplacement params names tree position result around replacement outer inner part := by
  rw [named_eq] at h
  rcases exists_of_spotAt?_exchanged h with ⟨spot, hspot, hexposed, rfl⟩ |
    ⟨around, new, outer, inner, part, hinto⟩
  · exact Or.inl ⟨spot, hspot, exposed_iff.2 hexposed, (namedSpot_eq spot).symm⟩
  · obtain ⟨replacement, hreplaced, rfl⟩ := Option.map_eq_some_iff.1 hinto.replaced
    refine Or.inr ⟨around, replacement, outer, inner, part, ?_⟩
    exact
      { position_eq := hinto.position_eq
        inner_ne := hinto.inner_ne
        around_at := hinto.around_at
        exposed := exposed_iff.2 hinto.exposed
        replaced := hreplaced
        part_at := placedAt_node around.node.place ▸ hinto.part_at
        result_eq := by rw [hinto.result_eq, named_eq] }

/-! ### Declarations in the block that comes out -/

theorem forall₂_alike_named (hexposed : Exposed params names spot) :
    List.Forall₂ Node.Alike spot.above (spot.above.map (named params names)) := by
  rw [List.forall₂_map_right_iff, List.forall₂_same]
  exact fun node hnode => alike_named (hexposed node hnode)

theorem scopeDepth_named (hoisted : Bool) (hexposed : Exposed params names spot) :
    scopeDepth hoisted (spot.above.map (named params names)) = scopeDepth hoisted spot.above :=
  (scopeDepth_congr hoisted (forall₂_alike_named hexposed)).symm

/-- What stays is declared for the same scope. -/
theorem scopeDepth?_named (hexposed : Exposed params names spot) :
    (namedSpot params names spot).scopeDepth? = spot.scopeDepth? := by
  refine (declaredDepth?_congr ?_ (forall₂_alike_named hexposed)).symm
  rw [namedSpot, named_eq, role_exchanged]

theorem reaches_named {declared : Position} (hspot : tree.spotAt? declared = some spot)
    (hexposed : Exposed params names spot) :
    (named params names tree).Reaches declared position ↔ tree.Reaches declared position := by
  rw [Reaches, Reaches, hspot, spotAt?_named hspot hexposed]
  simp only [Option.some.injEq, exists_and_left, exists_eq_left', scopeDepth?_named hexposed]

/-- A name declared in the place of a declaration is an alias. -/
theorem exists_of_spotAt?_aliases {place : Place} {pairs : List (String × String)} {inner : Position}
    {part : Spot} {above : List Node} {depth : Nat}
    (h : ((Replacement.aliases pairs).node place).spotAt? inner = some part)
    (hspells : part.node.spells name = true)
    (hdepth : declaredDepth? part.node (part.above ++ above) = some depth) :
    (∃ key, (name, key) ∈ pairs) ∧ depth = scopeDepth false above := by
  have hsymbol : ∀ place word, (Node.leaf place .symbol word).spells name = false := fun _ _ => rfl
  cases inner with
  | nil =>
      cases h
      cases hspells
  | cons i rest =>
      rw [spotAt?_cons] at h
      obtain ⟨child, hchild, h⟩ := Option.bind_eq_some_iff.1 h
      obtain ⟨below, hbelow, rfl⟩ := Option.map_eq_some_iff.1 h
      obtain ⟨⟨target, key⟩, hpair, hchild⟩ := List.mem_flatMap.1 (List.mem_of_getElem? hchild)
      simp only [Replacement.aliasParts, List.mem_cons, List.not_mem_nil, or_false] at hchild
      rcases hchild with rfl | rfl | rfl
      · rw [spotAt?_leaf hbelow] at hspells
        cases hspells
      · -- The name and the value of a declarator can spell a name, and only the first one declares it.
        cases rest with
        | nil =>
            cases hbelow
            cases hspells
        | cons k rest =>
            rw [spotAt?_cons] at hbelow
            obtain ⟨word, hword, hbelow⟩ := Option.bind_eq_some_iff.1 hbelow
            obtain ⟨leaf, hleaf, rfl⟩ := Option.map_eq_some_iff.1 hbelow
            have hword := List.mem_of_getElem? hword
            simp only [initialized, children, List.mem_cons, List.not_mem_nil, or_false] at hword
            rcases hword with rfl | rfl | rfl
            · rw [spotAt?_leaf hleaf] at hspells hdepth
              obtain rfl : target = name := beq_iff_eq.1 hspells
              exact ⟨⟨key, hpair⟩, (Option.some.inj hdepth).symm⟩
            · rw [spotAt?_leaf hleaf] at hspells
              cases hspells
            · rw [spotAt?_leaf hleaf] at hdepth
              cases hdepth
      · rw [spotAt?_leaf hbelow] at hspells
        cases hspells

/-- The read at the position becomes the name. -/
def Substituted (params : String) (names : List String) (block : Node) (position : Position)
    (name : String) : Prop :=
  ∃ spot, block.spotAt? position = some spot ∧ Exposed params names spot ∧
    replacement? params names spot.node = some (.parameter name)

instance (params : String) (names : List String) (block : Node) (position : Position)
    (name : String) : Decidable (Substituted params names block position name) :=
  decidable_of_iff ((block.spotAt? position).any fun spot =>
      spot.above.all (fun node => replacement? params names node == none) &&
        replacement? params names spot.node == some (.parameter name)) <| by
    simp only [Option.any_eq_true, Bool.and_eq_true, List.all_eq_true, beq_iff_eq, Substituted,
      Exposed]

/-- The ways in which a name in place of a route parameter comes to stand for something else. -/
inductive Captures (params : String) (names : List String) (block : Node) (name : String)
    (position : Position) : Prop where
  /-- Another declaration of the name stays, and is in force there. -/
  | declaration {declared : Position} {spot : Spot} (hspot : block.spotAt? declared = some spot)
      (hexposed : Exposed params names spot) (hname : spot.node.spells name = true)
      (hreaches : block.Reaches declared position)
  /-- An alias of a route parameter has the name, in the place of a declaration around. -/
  | renamed {declared : Position} {spot : Spot} {pairs : List (String × String)} {key : String}
      (hspot : block.spotAt? declared = some spot) (hexposed : Exposed params names spot)
      (hreplaced : replacement? params names spot.node = some (.aliases pairs))
      (hpair : (name, key) ∈ pairs)
      (hreaches : declared.take (scopeDepth false spot.above) <+: position)
  /-- The name comes to stand where a declaration has a target. -/
  | target {declared : Position} (hread : Substituted params names block declared name)
      (hreaches : block.Reaches declared position)

theorem spells_named (h : replacement? params names node = none) :
    (named params names node).spells name = node.spells name := by
  cases node with
  | leaf => rfl
  | branch =>
      rw [named, h]
      rfl

theorem captures_of_inForce {declared : Position}
    (h : (named params names block).InForce name declared position) :
    Captures params names block name position := by
  obtain ⟨⟨result, hresult, hspells⟩, hreaches⟩ := h
  rcases exists_of_spotAt?_named hresult with ⟨spot, hspot, hexposed, rfl⟩ |
    ⟨around, replacement, outer, inner, part, hinto⟩
  · have hreaches := (reaches_named hspot hexposed).1 hreaches
    have hspells : (named params names spot.node).spells name = true := hspells
    cases hreplaced : replacement? params names spot.node with
    | none => exact .declaration hspot hexposed (spells_named hreplaced ▸ hspells) hreaches
    | some replacement =>
        rw [named_of_replaced hreplaced] at hspells
        cases replacement with
        | aliases => cases hspells
        | parameter found =>
            obtain rfl : found = name := beq_iff_eq.1 hspells
            exact .target ⟨spot, hspot, hexposed, hreplaced⟩ hreaches
  · obtain ⟨spot, depth, hspot, hdepth, hprefix⟩ := hreaches
    obtain rfl := Option.some.inj (hresult.symm.trans hspot)
    have hpart := hinto.part_at
    cases replacement with
    | parameter =>
        -- Nothing is inside a name.
        obtain ⟨i, rest, rfl⟩ := List.exists_cons_of_ne_nil hinto.inner_ne
        cases hpart
    | aliases pairs =>
        rw [hinto.result_eq] at hspells hdepth
        obtain ⟨⟨key, hpair⟩, rfl⟩ := exists_of_spotAt?_aliases hpart hspells hdepth
        have hscope := scopeDepth_named false hinto.exposed
        refine .renamed hinto.around_at hinto.exposed hinto.replaced hpair ?_
        rw [hinto.position_eq, hscope, List.take_append_of_le_length] at hprefix
        · exact hprefix
        · rw [← length_above hinto.around_at]
          exact scopeDepth_le_length _ _

theorem exists_inForce_of_captures (h : Captures params names block name position) :
    ∃ declared, (named params names block).InForce name declared position := by
  cases h with
  | @declaration declared spot hspot hexposed hname hreaches =>
      have hreplaced : replacement? params names spot.node = none := by
        cases hnode : spot.node with
        | leaf => exact replacement?_leaf _ _ _
        | branch =>
            rw [hnode] at hname
            cases hname
      refine ⟨declared, ⟨_, spotAt?_named hspot hexposed, ?_⟩,
        (reaches_named hspot hexposed).2 hreaches⟩
      rw [namedSpot, spells_named hreplaced, hname]
  | @renamed declared spot pairs key hspot hexposed hreplaced hpair hreaches =>
      have hmem : initialized name key ∈ pairs.flatMap Replacement.aliasParts :=
        List.mem_flatMap.2 ⟨_, hpair, List.mem_cons_of_mem _ List.mem_cons_self⟩
      obtain ⟨i, hi⟩ := List.mem_iff_getElem?.1 hmem
      -- The name of the declarator, seen from the declarations and then from the whole block.
      have hpart : ((Replacement.aliases pairs).node spot.node.place).spotAt? [i, 0] =
          some { node := .leaf { role := some .name } .identifier name
                 above := [initialized name key, (Replacement.aliases pairs).node spot.node.place] } := by
        rw [spotAt?_cons, Replacement.node, children, hi]
        rfl
      have hresult : (named params names block).spotAt? (declared ++ [i, 0]) = some
          { node := .leaf { role := some .name } .identifier name
            above := [initialized name key, (Replacement.aliases pairs).node spot.node.place] ++
              spot.above.map (named params names) } := by
        rw [spotAt?_append, spotAt?_named hspot hexposed, Option.bind_some, namedSpot,
          named_of_replaced hreplaced, hpart]
        rfl
      refine ⟨declared ++ [i, 0], ⟨_, hresult, beq_self_eq_true name⟩, _, _, hresult, rfl, ?_⟩
      show (declared ++ [i, 0]).take (scopeDepth false (spot.above.map (named params names))) <+: _
      rw [scopeDepth_named _ hexposed, List.take_append_of_le_length]
      · exact hreaches
      · rw [← length_above hspot]
        exact scopeDepth_le_length _ _
  | @target declared hread hreaches =>
      obtain ⟨spot, hspot, hexposed, hreplaced⟩ := hread
      refine ⟨declared, ⟨_, spotAt?_named hspot hexposed, ?_⟩,
        (reaches_named hspot hexposed).2 hreaches⟩
      rw [namedSpot, named_of_replaced hreplaced]
      exact beq_self_eq_true name

/-- The rule writes the block in which reads of route parameters are names. Each of these names is one of
the accessor's parameters, and stands for something else in that block exactly when one of three things
captures it. -/
theorem captured_iff [Recovery] {body : String} {fragment : Fragment}
    (hparse : Fragment.parse? body = some fragment) (params : String) (names : List String) :
    apply (substituteRouteParams params names) body =
        Text.tidy (Text.inside (named params names fragment.block).text) ∧
      ∀ position name, Substituted params names fragment.block position name →
        name ∈ names ∧
        (∃ spot, (named params names fragment.block).spotAt? position = some spot ∧
          spot.node.spells name = true) ∧
        ((∃ declared, (named params names fragment.block).InForce name declared position) ↔
          Captures params names fragment.block name position) := by
  refine ⟨?_, fun position name hread => ⟨?_, ?_, ?_⟩⟩
  · rw [apply, Fragment.parse_of_parse? hparse, substituteRouteParams_eq, text_named]
    rfl
  · obtain ⟨spot, -, -, hreplaced⟩ := hread
    exact mem_of_replacement? hreplaced
  · obtain ⟨spot, hspot, hexposed, hreplaced⟩ := hread
    refine ⟨_, spotAt?_named hspot hexposed, ?_⟩
    rw [namedSpot, named_of_replaced hreplaced]
    exact beq_self_eq_true name
  · exact ⟨fun h => captures_of_inForce h.choose_spec, exists_inForce_of_captures⟩

/-! ### A name in its own initial value -/

attribute [local instance] Recovery.verbatim

/-- A body that converts a route parameter. -/
def convertedBody : String := "const id = Number(params.id);\nreturn id;"

/-- The places of the name that is declared and of the read. -/
def convertedName : Position := [1, 1, 0]
def convertedRead : Position := [1, 1, 2, 1, 1]

/-- Does the body read the parameter there, and is it in force there whenever the name is declared? -/
def convertsRead (fragment : Fragment) : Bool :=
  decide (Substituted "params" ["id"] fragment.block convertedRead "id") &&
    decide (fragment.block.InForce "id" convertedName convertedRead) &&
    (fragment.block.spotAt? convertedName).any fun spot =>
      spot.above.all fun node => replacement? "params" ["id"] node == none

set_option maxRecDepth 1000000 in
theorem convertsRead_convertedBody : (Fragment.parse? convertedBody).any convertsRead = true := by
  decide +kernel

set_option maxRecDepth 1000000 in
theorem inForce_rewritten :
    (Fragment.parse? (apply (substituteRouteParams "params" ["id"]) convertedBody)).any (fun fragment =>
      decide (fragment.block.InForce "id" convertedName convertedRead) &&
        (fragment.block.spotAt? convertedRead).any fun spot => spot.node.spells "id") = true := by
  decide +kernel

/-- The read becomes a name that the body declares around it: the declarator that it stands in. -/
theorem inForce_convertedName : ∃ before after,
    Fragment.parse? convertedBody = some before ∧
      Substituted "params" ["id"] before.block convertedRead "id" ∧
      Fragment.parse? (apply (substituteRouteParams "params" ["id"]) convertedBody) = some after ∧
      (∃ spot, after.block.spotAt? convertedRead = some spot ∧ spot.node.spells "id" = true) ∧
      after.block.InForce "id" convertedName convertedRead := by
  obtain ⟨before, hbefore, hread⟩ := (Option.any_eq_true _ _).1 convertsRead_convertedBody
  obtain ⟨after, hafter, h⟩ := (Option.any_eq_true _ _).1 inForce_rewritten
  simp only [convertsRead, Bool.and_eq_true, decide_eq_true_eq] at hread
  simp only [Bool.and_eq_true, decide_eq_true_eq, Option.any_eq_true] at h
  exact ⟨before, after, hbefore, hread.1.1, hafter, h.2, h.1⟩

/-- Nothing deletes the declaration around the read, so it captures the name. -/
theorem captured_convertedBody : ∃ fragment, Fragment.parse? convertedBody = some fragment ∧
    Substituted "params" ["id"] fragment.block convertedRead "id" ∧
    ∃ declared, (named "params" ["id"] fragment.block).InForce "id" declared convertedRead := by
  obtain ⟨fragment, hparse, h⟩ := (Option.any_eq_true _ _).1 convertsRead_convertedBody
  simp only [convertsRead, Bool.and_eq_true, decide_eq_true_eq, Option.any_eq_true, List.all_eq_true,
    beq_iff_eq] at h
  obtain ⟨⟨hread, ⟨spot, hspot, hname⟩, hreaches⟩, spot', hspot', hexposed⟩ := h
  obtain rfl := Option.some.inj (hspot.symm.trans hspot')
  refine ⟨fragment, hparse, hread, ?_⟩
  exact (((captured_iff hparse "params" ["id"]).2 _ _ hread).2.2).2
    (.declaration hspot hexposed hname hreaches)

end RouteBinder.Body
