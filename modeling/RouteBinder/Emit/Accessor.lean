import RouteBinder.Route.Address
import RouteBinder.Route.RouteTree
import RouteBinder.Text.Lines
import RouteBinder.Text.Quoted

/-!
# RouteBinder.Emit.Accessor

**The accessor object.** Emitted files export one object that is nested like the route tree. A child
is a property, and one with a dynamic segment is a function from the bound name to its object. Every
handler of a node is a member whose text is made by a `MemberEmitter`.
-/

namespace RouteBinder.Emit

open Text Route

/-- Makes the text of the member for a handler below the directories. -/
abbrev MemberEmitter := Handler → List String → String

/-- What opens and closes the object of a child. -/
def childFrame (key : String) (segment : Segment) : String × String :=
  let name := Quoted.propertyKey key
  match segment.param, segment.paramType with
  | some param, some type => (name ++ ": (" ++ param ++ ": " ++ type ++ ") => (\x7b", "\x7d),")
  | _, _ => (name ++ ": \x7b", "\x7d,")

/-- The member for a handler. -/
def memberLine (emit : MemberEmitter) (directories : List String) (handler : Handler) : String :=
  indent (handler.verb ++ ": " ++ emit handler directories ++ ",") 1

mutual
/-- The lines between the braces of a node's object. -/
def bodyLines (emit : MemberEmitter) (directories : List String) : RouteTree → List String
  | .node info children =>
    info.handlers.map (memberLine emit directories) ++ childLines emit directories children

/-- The lines for the children of a node. -/
def childLines (emit : MemberEmitter) (directories : List String) :
    List (String × RouteTree) → List String
  | [] => []
  | (key, child) :: rest =>
    let (opening, closing) := childFrame key (Segment.classify child.segment)
    let inner := bodyLines emit (directories ++ [child.segment]) child
    (indent opening 1 :: inner.map (indent · 1)) ++
      indent closing 1 :: childLines emit directories rest
end

/-- The object for a whole tree. -/
def accessorObject (tree : RouteTree) (emit : MemberEmitter) : String :=
  match bodyLines emit [] tree with
  | [] => "\x7b\x7d"
  | lines => String.intercalate "\n" ("\x7b" :: lines ++ ["\x7d"])

end RouteBinder.Emit
