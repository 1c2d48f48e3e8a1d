/-! # Ranges of characters

Properties of characters are given as lists of ranges of code points, in ascending order.
-/

namespace ColumnQuery.Text

/-- Whether a code point lies in one of some ranges. -/
def inRanges (ranges : List (Nat × Nat)) (c : Char) : Bool :=
  ranges.any fun (first, last) => decide (first ≤ c.toNat) && decide (c.toNat ≤ last)

end ColumnQuery.Text
