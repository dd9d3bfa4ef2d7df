import RouteBinder.Text.Lines

/-!
# RouteBinder.Project.Setting

**Values of settings.** Settings come from the environment and from callers, in whatever type they
are given; a setting that expects a text or a flag says here what it accepts.
-/

namespace RouteBinder.Project

open Text

/-- A value that is given for a setting. -/
inductive Setting where
  | text (value : String)
  | flag (value : Bool)
  | number (value : Int)
  | list (values : List Setting)
  /-- A value that no setting accepts. -/
  | other
  deriving Repr, Inhabited

namespace Setting

/-- Words for a set flag. -/
def affirmative : List String := ["1", "true", "t", "yes", "y", "on"]

/-- Words for an unset flag. -/
def negative : List String := ["0", "false", "f", "no", "n", "off"]

/-- The flag that a word stands for. -/
def flagOfWord? (word : String) : Option Bool :=
  let lower := lowerAscii word
  if affirmative.contains lower then some true
  else if negative.contains lower then some false
  else none

/-- The value as a flag: a flag, one of the words for it, or one of the numbers 0 and 1. -/
def asFlag? : Setting → Option Bool
  | .flag value => some value
  | .text word => flagOfWord? word
  | .number 0 => some false
  | .number 1 => some true
  | _ => none

/-- The value as a text. -/
def asText? : Setting → Option String
  | .text value => some value
  | _ => none

/-- The value as a list of texts. -/
def asTexts? : Setting → Option (List String)
  | .list values => values.mapM asText?
  | _ => none

end Setting

end RouteBinder.Project
