import Metering.Binary64.Numeral

/-!
# Bucket boundaries

Boundaries cut the numbers into buckets that include their lower end and exclude their upper one.
They must be finite and strictly increase. `bucketOf` finds a number's bucket by bisection, and so
has an answer for every list, of boundaries or not.
-/

namespace Metering

/-! ## Well-formed boundaries -/

/-- Why a list of numbers cannot serve as bucket boundaries. -/
inductive BoundaryFault where
  | notFinite
  | notIncreasing
deriving DecidableEq

namespace BoundaryFault

/-- Whether some number is not above the one before it. -/
def stalls : List Binary64 → Bool
  | a :: b :: rest => b.numLe a || stalls (b :: rest)
  | _ => false

/-- The fault of a list. A number that is not finite, wherever it stands, goes before the order. -/
def find? (values : List Binary64) : Option BoundaryFault :=
  if values.any fun b => !b.isFinite then some .notFinite
  else if stalls values then some .notIncreasing
  else none

def message : BoundaryFault → String
  | notFinite => "Bucket boundaries must not contain NaN, Infinity, or -Infinity"
  | notIncreasing => "Bucket boundaries must be sorted and not contain any duplicates"

end BoundaryFault

/-- Bucket boundaries without fault. -/
structure Boundaries where
  values : List Binary64
  faultless : BoundaryFault.find? values = none
deriving DecidableEq

namespace Boundaries

/-- The boundaries of a list, or its fault. -/
def ofList (values : List Binary64) : Except BoundaryFault Boundaries :=
  match h : BoundaryFault.find? values with
  | none => .ok ⟨values, h⟩
  | some fault => .error fault

end Boundaries

/-! ## Finding a bucket -/

/-- The index after the last one at which `p` holds, for a `p` that holds up to some index and
from there on fails. The answer is looked for among `first` and the `size` indices after it. -/
def bisect (p : Nat → Bool) (first size : Nat) : Nat :=
  if h : size ≤ 1 then
    if p first then first + 1 else first
  else
    let half := size / 2
    bisect p (if p (first + half) then first + half else first) (size - half)
termination_by size
decreasing_by omega

/-- The index of the bucket of `x`: how many boundaries lie at or below it. -/
def bucketOf (boundaries : List Binary64) (x : Binary64) : Nat :=
  if boundaries.isEmpty then 0
  else bisect (fun i => (boundaries[i]?).any fun b => b.numLe x) 0 boundaries.length

end Metering
