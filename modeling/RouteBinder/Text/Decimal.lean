/-!
# RouteBinder.Text.Decimal

**Decimal literals.** A literal is a row of digits in which single underscores may separate digits.
Anything else (another base, a fraction, an exponent, a suffix) is no decimal literal, and neither is
a row of more digits than `longest`.
-/

namespace RouteBinder.Text.Decimal

/-- The most digits that a literal may have. -/
def longest : Nat := 4300

/-- The digits of a literal; `afterDigit` says whether an underscore may come next. -/
def digits? (afterDigit : Bool) : List Char → Option (List Nat)
  | [] => if afterDigit then some [] else none
  | c :: rest =>
    if c.isDigit then (digits? true rest).map ((c.toNat - '0'.toNat) :: ·)
    else if c == '_' && afterDigit then digits? false rest
    else none

/-- The number that a literal stands for. -/
def value? (text : String) : Option Nat :=
  match digits? false text.toList with
  | some digits =>
    if digits.length ≤ longest then some (digits.foldl (fun n digit => 10 * n + digit) 0) else none
  | none => none

end RouteBinder.Text.Decimal
