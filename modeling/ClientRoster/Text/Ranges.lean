/-!
# `ClientRoster.Text.Ranges` — sets of code points as ranges

A property of characters is a list of closed ranges of code points in ascending order.
-/

namespace ClientRoster.Text

/-- Is a number in one of the ranges? The search ends at the first range that starts beyond the number. -/
def inRanges : List (Nat × Nat) → Nat → Bool
  | [], _ => false
  | (low, high) :: rest, n => if n < low then false else if n ≤ high then true else inRanges rest n

end ClientRoster.Text
