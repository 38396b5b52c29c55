/-!
Sets of code points, given as inclusive ranges.

A character class outside ASCII is data: a few hundred ranges in increasing order. This module holds
the one search that all the class tables share.
-/

namespace Landscape.Text

/-- Whether a code point lies in one of the ranges. The ranges are in increasing order, so the
search ends at the first range that starts beyond the code point. -/
def covers : List (Nat × Nat) → Nat → Bool
  | [], _ => false
  | (low, high) :: rest, point => low ≤ point && (point ≤ high || covers rest point)

@[simp] theorem covers_nil (point : Nat) : covers [] point = false := rfl

theorem covers_cons (low high : Nat) (rest : List (Nat × Nat)) (point : Nat) :
    covers ((low, high) :: rest) point = (low ≤ point && (point ≤ high || covers rest point)) := rfl

end Landscape.Text
