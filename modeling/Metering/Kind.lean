import Metering.Reservoir
import Metering.Tally

/-!
# Kinds of aggregation

A `Kind` is a way of summarising a series. It fixes the type of its tallies, `Kind.Tally`, and with
it what it means to record, merge and take a difference.
-/

namespace Metering

/-- A way of summarising the measurements of a series. -/
inductive Kind where
  /-- Their sum; `monotonic` only labels it as one that never decreases. -/
  | sum (monotonic : Bool)
  | lastValue
  /-- Their minimum, maximum, sum and count. -/
  | minMaxSumCount
  /-- A histogram; `recordsExtremes` says whether its minimum and maximum are exported. -/
  | histogram (boundaries : Boundaries) (recordsExtremes : Bool)
deriving DecidableEq

namespace Kind

/-- A histogram over boundaries that may have a fault. -/
def histogramOver (values : List Binary64) (recordsExtremes : Bool) : Except ConfigError Kind :=
  match Boundaries.ofList values with
  | .ok boundaries => .ok (.histogram boundaries recordsExtremes)
  | .error fault => .error (.boundaries fault)

/-- The numbers that a kind summarises a series as. -/
abbrev Tally (T : Type) : Kind → Type
  | .sum _ => Total T
  | .lastValue => Latest T
  | .minMaxSumCount => Spread T
  | .histogram _ _ => Distribution T

variable {T : Type} [Quantity T]

/-- The tally of no measurements. -/
def fresh : (k : Kind) → k.Tally T
  | .sum _ => Total.fresh
  | .lastValue => Latest.fresh
  | .minMaxSumCount => Spread.fresh
  | .histogram boundaries _ => Distribution.fresh boundaries

/-- Take in a measurement made at a time. -/
def record : (k : Kind) → k.Tally T → T → Time → k.Tally T
  | .sum _, t, v, _ => Total.record t v
  | .lastValue, t, v, time => Latest.record t v time
  | .minMaxSumCount, t, v, _ => Spread.record t v
  | .histogram boundaries _, t, v, _ => Distribution.record boundaries t v

/-- Join the tallies of two stretches of time, the earlier one first. -/
def merge : (k : Kind) → k.Tally T → k.Tally T → k.Tally T
  | .sum _, previous, current => Total.merge previous current
  | .lastValue, previous, current => Latest.merge previous current
  | .minMaxSumCount, previous, current => Spread.merge previous current
  | .histogram _ _, previous, current => Distribution.merge previous current

/-- What came between an earlier tally and a later one. -/
def diff : (k : Kind) → k.Tally T → k.Tally T → k.Tally T
  | .sum _, previous, current => Total.diff previous current
  | .lastValue, previous, current => Latest.diff previous current
  | .minMaxSumCount, previous, current => Spread.diff previous current
  | .histogram _ _, previous, current => Distribution.diff previous current

/-- Equality of tallies, values as numbers. -/
def numEq : (k : Kind) → k.Tally T → k.Tally T → Bool
  | .sum _, a, b => Total.numEq a b
  | .lastValue, a, b => Latest.numEq a b
  | .minMaxSumCount, a, b => Spread.numEq a b
  | .histogram _ _, a, b => Distribution.numEq a b

end Kind

/-- A kind with the way its series are sampled. -/
structure Aggregator (T : Type) where
  kind : Kind
  sampling : SamplingPlan T

/-- What a series yields for a stretch of time: its tally and the exemplars sampled on the way. -/
structure Accumulation (T : Type) (k : Kind) where
  tally : k.Tally T
  exemplars : List (Exemplar T) := []

namespace Accumulation

variable {T : Type} {k : Kind} [Quantity T]

/-- Join two accumulations; of the exemplars only the later ones stay. -/
def merge (previous current : Accumulation T k) : Accumulation T k :=
  ⟨k.merge previous.tally current.tally, current.exemplars⟩

/-- What came between two accumulations, with the later exemplars. -/
def diff (previous current : Accumulation T k) : Accumulation T k :=
  ⟨k.diff previous.tally current.tally, current.exemplars⟩

instance : BEq (Accumulation T k) :=
  ⟨fun a b => k.numEq a.tally b.tally && a.exemplars == b.exemplars⟩

end Accumulation

end Metering
