/-!
# Sets of characters as ranges
-/

namespace PlayStation.Text

/-- Whether a character lies in one of the ranges, which are given by their first and last
code points. -/
def inRanges (ranges : List (Nat × Nat)) (c : Char) : Bool :=
  ranges.any fun (first, last) => first ≤ c.toNat && c.toNat ≤ last

end PlayStation.Text
