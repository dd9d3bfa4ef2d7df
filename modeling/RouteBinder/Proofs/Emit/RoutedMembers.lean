import RouteBinder.Emit.Artifact
import RouteBinder.Proofs.Route.AddressTemplates

/-!
# RouteBinder.Proofs.Emit.RoutedMembers

**The members of the accessor object and the list of routes.** An accessor object is a list of
properties: a member for a handler, an object for a child, or a function to the object for a child
with a dynamic segment (`Property`). The properties of a tree do not depend on what makes the members
(`accessorObject_eq_written`), so their members, each with the parameters of the functions around it,
are what the emitter is called for. They are the handlers that the list of routes has, in its order,
and the parameters are the names that their addresses substitute (`members_properties`).

The main statement is `routed_members`: listing, accessor functions and address templates agree on
every handler of every tree.
-/

namespace RouteBinder.Emit

open Text Route

/-! ### Properties -/

/-- A property of an accessor object. -/
inductive Property where
  /-- The member for a handler below some directories. -/
  | member (handler : Handler) (directories : List String)
  | object (key : String) (properties : List Property)
  /-- A function of one parameter to an object. -/
  | accessor (key param type : String) (properties : List Property)

/-- The property for a child with this key and segment. -/
def childProperty (key : String) (segment : Segment) (properties : List Property) : Property :=
  match segment.param, segment.paramType with
  | some param, some type => .accessor key param type properties
  | _, _ => .object key properties

mutual
/-- The properties of a node's object. -/
def properties (directories : List String) : RouteTree → List Property
  | .node info children =>
    info.handlers.map (.member · directories) ++ childProperties directories children

def childProperties (directories : List String) : List (String × RouteTree) → List Property
  | [] => []
  | (key, child) :: rest =>
    childProperty key (Segment.classify child.segment)
      (properties (directories ++ [child.segment]) child) :: childProperties directories rest
end

mutual
/-- The lines of a property. -/
def Property.lines (emit : MemberEmitter) : Property → List String
  | .member handler directories => [memberLine emit directories handler]
  | .object key properties =>
    indent (Quoted.propertyKey key ++ ": \x7b") 1 ::
      ((linesOf emit properties).map (indent · 1) ++ [indent "\x7d," 1])
  | .accessor key param type properties =>
    indent (Quoted.propertyKey key ++ ": (" ++ param ++ ": " ++ type ++ ") => (\x7b") 1 ::
      ((linesOf emit properties).map (indent · 1) ++ [indent "\x7d)," 1])

def linesOf (emit : MemberEmitter) : List Property → List String
  | [] => []
  | property :: rest => property.lines emit ++ linesOf emit rest
end

/-- The object with these properties. -/
def written (emit : MemberEmitter) (properties : List Property) : String :=
  match linesOf emit properties with
  | [] => "\x7b\x7d"
  | lines => String.intercalate "\n" ("\x7b" :: lines ++ ["\x7d"])

section
variable {emit : MemberEmitter}

theorem linesOf_append (first second : List Property) :
    linesOf emit (first ++ second) = linesOf emit first ++ linesOf emit second := by
  induction first with
  | nil => rfl
  | cons property rest ih => rw [List.cons_append, linesOf, linesOf, ih, List.append_assoc]

theorem linesOf_members (directories : List String) (handlers : List Handler) :
    linesOf emit (handlers.map (.member · directories)) =
      handlers.map (memberLine emit directories) := by
  induction handlers with
  | nil => rfl
  | cons handler rest ih =>
    rw [List.map_cons, linesOf, ih]
    rfl

/-- A child's property is written in the frame of its segment. -/
theorem lines_childProperty (key : String) (segment : Segment) (properties : List Property) :
    (childProperty key segment properties).lines emit =
      indent (childFrame key segment).1 1 ::
        ((linesOf emit properties).map (indent · 1) ++ [indent (childFrame key segment).2 1]) := by
  unfold childProperty childFrame
  cases segment.param with
  | none => rfl
  | some param =>
    cases segment.paramType with
    | none => rfl
    | some type => rfl

mutual
/-- The lines of a node's object are those of its properties. -/
theorem bodyLines_eq_linesOf : ∀ (directories : List String) (tree : RouteTree),
    bodyLines emit directories tree = linesOf emit (properties directories tree)
  | directories, .node info children => by
    rw [bodyLines, properties, linesOf_append, linesOf_members,
      childLines_eq_linesOf directories children]

theorem childLines_eq_linesOf : ∀ (directories : List String) (children : List (String × RouteTree)),
    childLines emit directories children = linesOf emit (childProperties directories children)
  | _, [] => rfl
  | directories, (key, child) :: rest => by
    rw [childLines, childProperties, linesOf, lines_childProperty,
      bodyLines_eq_linesOf (directories ++ [child.segment]) child,
      childLines_eq_linesOf directories rest, List.cons_append, List.append_assoc]
    rfl
end

/-- The object of a tree is written out of its properties, whatever makes the members. -/
theorem accessorObject_eq_written (tree : RouteTree) (emit : MemberEmitter) :
    accessorObject tree emit = written emit (properties [] tree) := by
  have hlines := (bodyLines_eq_linesOf [] tree : bodyLines emit [] tree = _)
  cases hbody : bodyLines emit [] tree with
  | nil => simp only [accessorObject, written, ← hlines, hbody]
  | cons line rest => simp only [accessorObject, written, ← hlines, hbody]

end

/-! ### Members -/

/-- A member: the handler and the directories that the emitter is called with, and the parameters of
the functions around it with their types, the outermost first. -/
structure Member where
  handler : Handler
  directories : List String
  params : List (String × String)
  deriving DecidableEq, Repr

mutual
/-- The members of a property inside of functions with these parameters. -/
def Property.members (params : List (String × String)) : Property → List Member
  | .member handler directories => [⟨handler, directories, params⟩]
  | .object _ properties => membersOf params properties
  | .accessor _ param type properties => membersOf (params ++ [(param, type)]) properties

def membersOf (params : List (String × String)) : List Property → List Member
  | [] => []
  | property :: rest => property.members params ++ membersOf params rest
end

/-- The parameter of the function for a segment, with its type. -/
def binding? (segment : Segment) : Option (String × String) :=
  match segment.param, segment.paramType with
  | some param, some type => some (param, type)
  | _, _ => none

/-- The parameters of the functions on the way to a place, with their types. -/
def bindings (directories : List String) : List (String × String) :=
  (directories.map Segment.classify).filterMap binding?

/-- The handlers of some nodes with the directories that lead to them. -/
def handledBy (entries : List (List String × RouteTree)) : List (Handler × List String) :=
  entries.flatMap fun entry => entry.2.handlers.map (·, entry.1)

/-- The handlers of a tree with the directories that lead to them. -/
def handled (tree : RouteTree) : List (Handler × List String) := handledBy tree.entries

/-- The member for a handler in some directories. -/
def memberAt (place : Handler × List String) : Member := ⟨place.1, place.2, bindings place.2⟩

theorem bindings_concat (directories : List String) (name : String) :
    bindings (directories ++ [name]) =
      bindings directories ++ (binding? (Segment.classify name)).toList := by
  rw [bindings, List.map_append, List.filterMap_append, List.map_singleton,
    List.filterMap_cons, List.filterMap_nil]
  cases binding? (Segment.classify name) <;> rfl

theorem membersOf_append (params : List (String × String)) (first second : List Property) :
    membersOf params (first ++ second) = membersOf params first ++ membersOf params second := by
  induction first with
  | nil => rfl
  | cons property rest ih => rw [List.cons_append, membersOf, membersOf, ih, List.append_assoc]

theorem membersOf_members (params : List (String × String)) (directories : List String)
    (handlers : List Handler) :
    membersOf params (handlers.map (.member · directories)) =
      handlers.map (⟨·, directories, params⟩) := by
  induction handlers with
  | nil => rfl
  | cons handler rest ih =>
    rw [List.map_cons, membersOf, ih]
    rfl

theorem members_childProperty (params : List (String × String)) (key : String) (segment : Segment)
    (properties : List Property) :
    (childProperty key segment properties).members params =
      membersOf (params ++ (binding? segment).toList) properties := by
  unfold childProperty binding?
  cases segment.param with
  | none => rw [Property.members, Option.toList_none, List.append_nil]
  | some param =>
    cases segment.paramType with
    | none => rw [Property.members, Option.toList_none, List.append_nil]
    | some type => rfl

mutual
theorem membersOf_properties : ∀ (directories : List String) (tree : RouteTree),
    membersOf (bindings directories) (properties directories tree) =
      (handledBy (tree.entriesFrom directories)).map memberAt
  | directories, .node info children => by
    rw [properties, membersOf_append, membersOf_members,
      membersOf_childProperties directories children, RouteTree.entriesFrom, handledBy, handledBy,
      List.flatMap_cons, List.map_append, List.map_map]
    rfl

theorem membersOf_childProperties : ∀ (directories : List String)
    (children : List (String × RouteTree)),
    membersOf (bindings directories) (childProperties directories children) =
      (handledBy (RouteTree.entriesOfChildren directories children)).map memberAt
  | _, [] => rfl
  | directories, (key, child) :: rest => by
    rw [childProperties, membersOf, members_childProperty, ← bindings_concat,
      membersOf_properties (directories ++ [child.segment]) child,
      membersOf_childProperties directories rest, RouteTree.entriesOfChildren, handledBy, handledBy,
      handledBy, List.flatMap_append, List.map_append]
end

/-- The members of the object of a tree are its handlers in the order of its entries, inside of the
functions for their directories. -/
theorem members_properties (tree : RouteTree) :
    membersOf [] (properties [] tree) = (handled tree).map memberAt :=
  membersOf_properties [] tree

theorem map_fst_bindings (directories : List String) :
    (bindings directories).map Prod.fst = Address.params directories := by
  rw [bindings, Address.params, List.map_filterMap]
  refine List.filterMap_congr fun segment h => ?_
  obtain ⟨name, -, rfl⟩ := List.mem_map.1 h
  obtain ⟨param, hname⟩ | ⟨param, hname⟩ | hname | hname | hname := Segment.classify_cases name
  all_goals
    rw [hname]
    rfl

theorem map_snd_bindings (directories : List String) :
    (bindings directories).map Prod.snd =
      (Segment.visible directories).filterMap Segment.paramType := by
  rw [Segment.filterMap_visible (fun _ => Segment.paramType_of_isDynamic), bindings,
    List.map_filterMap]
  refine List.filterMap_congr fun segment h => ?_
  obtain ⟨name, -, rfl⟩ := List.mem_map.1 h
  obtain ⟨param, hname⟩ | ⟨param, hname⟩ | hname | hname | hname := Segment.classify_cases name
  all_goals
    rw [hname]
    rfl

/-! ### Agreement -/

/-- The line of the list of routes for a handler in some directories. -/
def routeRow (place : Handler × List String) : RouteRow :=
  { verb := place.1.verb
    path := Address.listing place.2
    input := place.1.input.render
    output := place.1.output.render
    marker := place.1.marker.name }

theorem routeRows_eq (tree : RouteTree) : routeRows tree = (handled tree).map routeRow := by
  rw [routeRows, handled, handledBy, List.map_flatMap]
  simp only [List.map_map]
  rfl

/-- The address of a member agrees with the functions around it: its template is written out of parts
that substitute the parameters in order, and in every call it evaluates to the address with the
arguments in the place of the dynamic segments. -/
structure Member.Addressed (member : Member) : Prop where
  params : member.params.map Prod.fst = Address.params member.directories
  template : (Address.template member.directories).toList =
    '\x60' :: ((Address.parts member.directories).flatMap Address.Part.render ++ ['\x60'])
  names : (Address.parts member.directories).flatMap Address.Part.names =
    member.params.map Prod.fst
  read : Address.Legible member.directories →
    Address.read? (Address.template member.directories) = some (Address.parts member.directories)
  value : Address.Legible member.directories → (member.params.map Prod.fst).Nodup →
    ∀ arguments : List Address.Argument,
      arguments.map Address.Argument.type = member.params.map Prod.snd →
        Address.evaluate? (Address.scope (member.params.map Prod.fst) arguments)
            (Address.template member.directories) =
          some (Address.filled member.directories arguments)

theorem addressed_memberAt (place : Handler × List String) : (memberAt place).Addressed where
  params := map_fst_bindings place.2
  template := Address.toList_template place.2
  names := by
    rw [Address.names_parts]
    exact (map_fst_bindings place.2).symm
  read := Address.read?_template
  value := by
    intro hlegible hnodup arguments htypes
    have hparams : (memberAt place).params.map Prod.fst = Address.params place.2 :=
      map_fst_bindings place.2
    rw [hparams] at hnodup ⊢
    exact Address.evaluate?_template hlegible hnodup (htypes.trans (map_snd_bindings place.2))

/-- Listing, accessor functions and address templates agree on every handler of every tree: the object
is written out of properties that do not depend on the emitter, their members are the handlers in the
order of the tree's entries, which is also the order of the list of routes, and every member's address
agrees with the functions around it. -/
theorem routed_members (tree : RouteTree) :
    (∀ emit, accessorObject tree emit = written emit (properties [] tree)) ∧
      (membersOf [] (properties [] tree)).map (fun member => (member.handler, member.directories)) =
        handled tree ∧
      routeRows tree = (handled tree).map routeRow ∧
      ∀ member ∈ membersOf [] (properties [] tree), member.Addressed := by
  refine ⟨accessorObject_eq_written tree, ?_, routeRows_eq tree, ?_⟩
  · rw [members_properties, List.map_map]
    exact List.map_id _
  · rw [members_properties, List.forall_mem_map]
    exact fun place _ => addressed_memberAt place

/-- A route below a static, a dynamic and a catch-all directory. -/
def commentRoute : RouteTree :=
  .node { segment := "app" } [("posts", .node { segment := "posts" }
    [("postId", .node { segment := "[postId]" }
      [("rest", .node { segment := "[...rest]", handlers := [{ verb := "GET" }] } [])])])]

/-- The place of the route. -/
def commentPlace : List String := ["posts", "[postId]", "[...rest]"]

theorem legible_commentPlace : Address.Legible commentPlace where
  static := by decide +kernel
  isWord := by decide +kernel

theorem routed_members_commentRoute :
    Address.template commentPlace = "\x60/posts/$\x7bpostId\x7d/$\x7brest.join(\"/\")\x7d\x60" ∧
      Address.evaluate?
          (Address.scope ["postId", "rest"] [.text "7", .list ["a", "b"]])
          (Address.template commentPlace) = some "/posts/7/a/b" := by
  have hmember : (⟨{ verb := "GET" }, commentPlace, [("postId", "string"), ("rest", "string[]")]⟩ :
      Member) ∈ membersOf [] (properties [] commentRoute) := by decide +kernel
  have haddressed := (routed_members commentRoute).2.2.2 _ hmember
  refine ⟨by decide +kernel, ?_⟩
  exact haddressed.value legible_commentPlace (by decide) [.text "7", .list ["a", "b"]] rfl

/-! A carriage return in the name of a directory is none of the characters with a meaning of their own
in a template literal, but it is read as a line feed. -/

/-- A route in a directory with a carriage return in its name. -/
def returnRoute : RouteTree :=
  .node { segment := "app" }
    [("a\rb", .node { segment := "a\rb", handlers := [{ verb := "GET" }] } [])]

theorem value_ne_filled_carriageReturn :
    ∃ member ∈ membersOf [] (properties [] returnRoute),
      (∀ segment ∈ Segment.visible member.directories, '\x60' ∉ segment.name.toList ∧
        '\\' ∉ segment.name.toList ∧ '$' ∉ segment.name.toList) ∧
      member.params = [] ∧
      Address.evaluate? (Address.scope [] []) (Address.template member.directories) =
        some "/a\nb" ∧
      Address.listing member.directories = "/a\rb" ∧
      Address.filled member.directories [] = "/a\rb" := by
  refine ⟨⟨{ verb := "GET" }, ["a\rb"], []⟩, ?_⟩
  decide +kernel

end RouteBinder.Emit
