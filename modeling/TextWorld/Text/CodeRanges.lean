/-! Sets of characters given as lists of code-point intervals. -/

namespace TextWorld.Text

/-- Intervals of code points, both ends included. -/
abbrev CodeRanges := List (Nat × Nat)

/-- Whether the code point of `c` lies in one of the intervals. -/
def CodeRanges.covers (ranges : CodeRanges) (c : Char) : Bool :=
  ranges.any fun r => r.1 ≤ c.toNat && c.toNat ≤ r.2

end TextWorld.Text
