/-!
# Sets of code points

A `CodePoints` is a set of Unicode code points, kept as the closed ranges that it is made of. It
holds the characters of a property that has too many to be named one by one.
-/

namespace Metering

/-- Whether every range ends at or after its start, and before the next one with a gap between. -/
def rangesAscend : List (Nat × Nat) → Bool
  | [] => true
  | [r] => decide (r.1 ≤ r.2)
  | r :: s :: rest => decide (r.1 ≤ r.2) && decide (r.2 + 1 < s.1) && rangesAscend (s :: rest)

/-- A set of code points: closed ranges in ascending order, with gaps between them. -/
structure CodePoints where
  ranges : List (Nat × Nat)
  ascend : rangesAscend ranges = true

namespace CodePoints

/-- Whether a code point lies in one of the ranges. -/
def contains (s : CodePoints) (n : Nat) : Bool :=
  s.ranges.any fun r => decide (r.1 ≤ n) && decide (n ≤ r.2)

end CodePoints

end Metering
