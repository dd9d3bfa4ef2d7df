import RouteBinder.Text.Lines

/-!
# RouteBinder.Text.Styled

**Styled text.** In the lines that are shown to people, a tag in brackets chooses a style for what
follows and is not shown. A tag starts with a lower-case letter or with one of `#`, `/` and `@`;
brackets around anything else are shown as they are.
-/

namespace RouteBinder.Text

namespace Styled

def startsTag (c : Char) : Bool := c.isLower || c == '#' || c == '/' || c == '@'

/-- What follows the tag at the beginning of a text, behind its opening bracket. -/
def afterTag? (text : List Char) : Option (List Char) :=
  if text.head?.any startsTag then
    match text.dropWhile fun c => c != ']' && c != '[' with
    | ']' :: rest => some rest
    | _ => none
  else none

theorem length_lt_of_afterTag? {text rest : List Char} (found : afterTag? text = some rest) :
    rest.length < text.length := by
  unfold afterTag? at found
  split at found
  · have shorter := (List.dropWhile_sublist (fun c => c != ']' && c != '[') (l := text)).length_le
    split at found
    · rename_i same
      rw [same] at shorter
      cases found
      simp only [List.length_cons] at shorter
      omega
    · cases found
  · cases found

/-- The characters that are shown. -/
def shown : List Char → List Char
  | [] => []
  | c :: rest =>
    if c == '[' then
      match _found : afterTag? rest with
      | some rest => shown rest
      | none => c :: shown rest
    else c :: shown rest
termination_by text => text.length
decreasing_by
  all_goals simp_wf
  have := length_lt_of_afterTag? _found
  omega

end Styled

/-- A text without its tags. -/
def unstyled (text : String) : String := String.ofList (Styled.shown text.toList)

end RouteBinder.Text
