import Metering.Quantity
import Metering.Boundaries
import Metering.Window

/-!
# Tallies

A tally is the numbers that a series is summarised as: its sum, its latest value, its extremes or
its histogram. Each kind starts from a tally of nothing, takes in measurements one by one (`record`),
joins the tallies of two stretches of time (`merge`) and takes an earlier tally away from a later
one (`diff`). Sums of words and all counts wrap; differences of counts stop at zero.
-/

namespace Metering

open Quantity

variable {T : Type}

/-- The count of a difference: never below zero. -/
def countMinus (a b : UInt64) : UInt64 := if b ≤ a then a - b else 0

/-! ## Sum -/

/-- The sum of the measurements. -/
structure Total (T : Type) where
  value : T

namespace Total

variable [Quantity T]

def fresh : Total T := ⟨zero⟩

def record (t : Total T) (v : T) : Total T := ⟨add t.value v⟩

def merge (previous current : Total T) : Total T := ⟨add previous.value current.value⟩

def diff (previous current : Total T) : Total T := ⟨minus current.value previous.value⟩

protected def numEq (a b : Total T) : Bool := Quantity.numEq a.value b.value

end Total

/-! ## Latest value -/

/-- The latest measurement and its time. -/
structure Latest (T : Type) where
  value : T
  time : Time

namespace Latest

variable [Quantity T]

def fresh : Latest T := ⟨zero, 0⟩

def record (_ : Latest T) (v : T) (time : Time) : Latest T := ⟨v, time⟩

/-- Whether the second of two is the later one; of two at the same time, whether it is not the
smaller one. -/
def isSuperseded (previous current : Latest T) : Bool :=
  if previous.time < current.time then true
  else if current.time < previous.time then false
  -- with a NaN on either side, the previous one stays
  else numLe previous.value current.value

def merge (previous current : Latest T) : Latest T :=
  if previous.isSuperseded current then current else previous

/-- What was the latest value is so whatever came before. -/
def diff (_ current : Latest T) : Latest T := current

protected def numEq (a b : Latest T) : Bool := Quantity.numEq a.value b.value && a.time == b.time

end Latest

/-! ## Extremes, sum and count -/

/-- The count, sum, minimum and maximum of the measurements. -/
structure Spread (T : Type) where
  count : UInt64
  sum : T
  min : T
  max : T

namespace Spread

variable [Quantity T]

/-- The minimum of nothing is the greatest value and its maximum the least. -/
def fresh : Spread T := ⟨0, zero, greatest, least⟩

def record (s : Spread T) (v : T) : Spread T where
  count := s.count + 1
  sum := add s.sum v
  min := lower s.min v
  max := higher s.max v

def merge (previous current : Spread T) : Spread T where
  count := previous.count + current.count
  sum := add previous.sum current.sum
  min := lower previous.min current.min
  max := higher previous.max current.max

/-- Extremes cannot be taken apart, so those of the later tally stay. -/
def diff (previous current : Spread T) : Spread T where
  count := countMinus current.count previous.count
  sum := minus current.sum previous.sum
  min := current.min
  max := current.max

protected def numEq (a b : Spread T) : Bool :=
  a.count == b.count && Quantity.numEq a.sum b.sum && Quantity.numEq a.min b.min &&
    Quantity.numEq a.max b.max

end Spread

/-! ## Histogram -/

/-- The spread of the measurements and how many fell into each bucket. -/
structure Distribution (T : Type) extends Spread T where
  buckets : List UInt64

namespace Distribution

variable [Quantity T]

def fresh (boundaries : Boundaries) : Distribution T where
  toSpread := .fresh
  buckets := List.replicate (boundaries.values.length + 1) 0

def record (boundaries : Boundaries) (d : Distribution T) (v : T) : Distribution T where
  toSpread := d.toSpread.record v
  buckets := d.buckets.modify (bucketOf boundaries.values (toBinary64 v)) (· + 1)

/-- Buckets are joined one by one, as far as both tallies have them. -/
def merge (previous current : Distribution T) : Distribution T where
  toSpread := previous.toSpread.merge current.toSpread
  buckets := List.zipWith (· + ·) previous.buckets current.buckets

def diff (previous current : Distribution T) : Distribution T where
  toSpread := previous.toSpread.diff current.toSpread
  buckets := List.zipWith (fun p c => countMinus c p) previous.buckets current.buckets

protected def numEq (a b : Distribution T) : Bool :=
  a.toSpread.numEq b.toSpread && a.buckets == b.buckets

end Distribution

end Metering
