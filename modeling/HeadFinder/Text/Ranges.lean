/-! # Sets of code points as ascending ranges -/
namespace HeadFinder.Text

/-- Whether a code point lies in one of the ranges, which stand in ascending
order with both ends included. -/
def inRanges : List (Nat × Nat) → Nat → Bool
  | [], _ => false
  | (low, high) :: rest, n => if n < low then false else n ≤ high || inRanges rest n

end HeadFinder.Text
