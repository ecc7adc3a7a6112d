/-!
# Sets of characters given by ranges

Classes of characters are tables of closed ranges of code points in increasing order.
-/

namespace VbaLint.Text

/-- Membership of a code point; the search ends at the first range that starts past it. -/
def rangesContain : List (Nat × Nat) → Nat → Bool
  | [], _ => false
  | (low, high) :: rest, point =>
    if point < low then false else decide (point ≤ high) || rangesContain rest point

/-- Membership of a character in the class given by `ranges`. -/
def inRanges (ranges : List (Nat × Nat)) (c : Char) : Bool := rangesContain ranges c.toNat

end VbaLint.Text
