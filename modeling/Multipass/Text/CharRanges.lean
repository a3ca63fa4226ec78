/-!
# Classes of characters given by ranges

A property of characters is a list of closed ranges of code points.
-/

namespace Multipass.Text

/-- Closed ranges of code points, in ascending order. -/
abbrev CharRanges := List (Nat × Nat)

/-- Does one of the ranges hold the character? -/
def CharRanges.covers (ranges : CharRanges) (c : Char) : Bool :=
  ranges.any fun (first, last) => first ≤ c.toNat && c.toNat ≤ last

end Multipass.Text
