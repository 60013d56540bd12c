/-!
Sets of characters as lists of ranges.
-/

namespace Footprint.Text

/-- A set of characters: ranges with the first and the last code point and the distance between
neighbours. -/
abbrev Ranges := List (Nat × Nat × Nat)

/-- Whether a code point is in one of the ranges. -/
def Ranges.contains (ranges : Ranges) (n : Nat) : Bool :=
  ranges.any fun (first, last, step) => first ≤ n && n ≤ last && (n - first) % step == 0

end Footprint.Text
