/-!
# Sets of characters given by ranges

A character class beyond ASCII is a table of inclusive ranges of code points in ascending order.
-/

namespace MarkupTemplate.Text

/-- Membership of a character in a table of inclusive ranges. -/
def inRanges (ranges : Array (Nat × Nat)) (c : Char) : Bool :=
  ranges.any fun r => r.1 ≤ c.toNat && c.toNat ≤ r.2

end MarkupTemplate.Text
