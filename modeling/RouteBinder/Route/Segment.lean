import RouteBinder.Text.Chars

/-!
# RouteBinder.Route.Segment

**Route segments.** The name of a directory says what it contributes to the routes below it:

* `[[...x]]` and `[...x]` match any number of path components, bound to `x`;
* `[x]` matches one component, bound to `x`;
* `(x)` groups routes without showing up in their paths;
* `api`, in any case, collects methods for the directory above it and does not show up either;
* every other name stands for itself.
-/

namespace RouteBinder.Route

open Text

inductive SegmentKind where
  | static
  | dynamic
  | catchAll
  | group
  | collector
  deriving DecidableEq, Repr, Inhabited

/-- A directory name and what it contributes. -/
structure Segment where
  name : String
  kind : SegmentKind
  /-- The name that a dynamic segment binds. -/
  param : Option String := none
  deriving DecidableEq, Repr, Inhabited

namespace Segment

/-- What stands between `opening` and `closing` when both are there and something is between
them. -/
def between? (opening closing name : String) : Option String :=
  let characters := name.toList
  let inner := (characters.drop opening.length).take
    (characters.length - opening.length - closing.length)
  if opening.toList.isPrefixOf characters && closing.toList.isSuffixOf characters &&
      characters.length > opening.length + closing.length then
    some (String.ofList inner)
  else none

/-- The segment that a directory name stands for. -/
def classify (name : String) : Segment :=
  match between? "[[..." "]]" name, between? "[..." "]" name, between? "[" "]" name,
      between? "(" ")" name with
  | some param, _, _, _ => ⟨name, .catchAll, some param⟩
  | none, some param, _, _ => ⟨name, .catchAll, some param⟩
  | none, none, some param, _ => ⟨name, .dynamic, some param⟩
  | none, none, none, some _ => ⟨name, .group, none⟩
  | none, none, none, none =>
    if lowerAscii name == "api" then ⟨name, .collector, none⟩ else ⟨name, .static, none⟩

/-- The key of the segment among its siblings. -/
def key (segment : Segment) : String := segment.param.getD segment.name

def isDynamic (segment : Segment) : Bool :=
  match segment.kind with
  | .dynamic | .catchAll => true
  | _ => false

/-- Groups and collectors show up neither in paths nor in keys. -/
def isTransparent (segment : Segment) : Bool :=
  match segment.kind with
  | .group | .collector => true
  | _ => false

/-- The type of the bound name. -/
def paramType (segment : Segment) : Option String :=
  match segment.kind with
  | .catchAll => some "string[]"
  | .dynamic => some "string"
  | _ => none

/-- The segments of a directory path that show up in routes. -/
def visible (names : List String) : List Segment :=
  ((names.filter (!·.isEmpty)).map classify).filter (!·.isTransparent)

/-- The keys of a directory path. -/
def keys (names : List String) : List String := (visible names).map key

end Segment

end RouteBinder.Route
