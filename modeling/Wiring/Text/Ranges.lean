/-!
# Ranges of characters

A property of characters is a list of ranges, both ends included.
-/

namespace Wiring.Text

/-- Whether a number is in one of the ranges. -/
def within (ranges : List (Nat × Nat)) (n : Nat) : Bool :=
  ranges.any (fun r => r.1 ≤ n && n ≤ r.2)

end Wiring.Text
