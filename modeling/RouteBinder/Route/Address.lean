import RouteBinder.Route.Segment

/-!
# RouteBinder.Route.Address

**Addresses of routes**, for two readers: `template` is an expression of emitted code, in which the
bound names of the segments are interpolated, and `listing` is the path as people write it.
-/

namespace RouteBinder.Route

namespace Address

/-- What a segment contributes to the template. -/
def templatePart (segment : Segment) : String :=
  match segment.kind with
  | .catchAll => "$\x7b" ++ (segment.param.getD "") ++ ".join(\"/\")\x7d"
  | .dynamic => "$\x7b" ++ (segment.param.getD "") ++ "\x7d"
  | _ => segment.name

/-- A template literal for the address of the route in these directories. -/
def template (directories : List String) : String :=
  "\x60/" ++ String.intercalate "/" ((Segment.visible directories).map templatePart) ++ "\x60"

/-- The address as it is shown to people. -/
def listing (directories : List String) : String :=
  "/" ++ String.intercalate "/" ((Segment.visible directories).map Segment.name)

/-- The names bound along the way, in order. -/
def params (directories : List String) : List String :=
  (directories.map Segment.classify).filterMap Segment.param

end Address

end RouteBinder.Route
