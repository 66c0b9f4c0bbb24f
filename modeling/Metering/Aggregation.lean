import Metering.Kind

/-!
# Aggregations

An `Aggregation` is how the measurements of an instrument are to be summarised, as it is asked for:
its boundaries may have a fault, and it may ask for nothing to be kept.
-/

namespace Metering

/-- How measurements are to be summarised. -/
inductive Aggregation where
  /-- Not at all. -/
  | drop
  /-- As their sum. A monotonic one takes no negative measurements. -/
  | sum (monotonic : Bool)
  | lastValue
  | minMaxSumCount
  /-- As a histogram, with or without its extremes. -/
  | histogram (boundaries : List Binary64) (recordsExtremes : Bool)
deriving DecidableEq

namespace Aggregation

instance : Inhabited Aggregation := ⟨.sum true⟩

/-- The boundaries of a histogram for which none are given. -/
def defaultBoundaries : List Binary64 :=
  [0, 5, 10, 25, 50, 75, 100, 250, 500, 750, 1000, 2500, 5000, 7500, 10000].map Binary64.ofInt

def defaultHistogram : Aggregation := .histogram defaultBoundaries true

def name : Aggregation → String
  | .drop => "Drop"
  | .sum _ => "Sum"
  | .lastValue => "LastValue"
  | .minMaxSumCount => "MinMaxSumCount"
  | .histogram _ _ => "ExplicitBucketHistogram"

/-- Whether two ask for the same, boundaries being compared as numbers. -/
def same : Aggregation → Aggregation → Bool
  | .histogram a x, .histogram b y => a.isEqv b Binary64.numEq && x == y
  | .histogram _ _, _ => false
  | a, b => decide (a = b)

/-- Whether negative measurements are refused. -/
def isMonotonic : Aggregation → Bool
  | .sum monotonic => monotonic
  | _ => false

/-- The kind asked for, or none. -/
def kind? : Aggregation → Except ConfigError (Option Kind)
  | .drop => .ok none
  | .sum monotonic => .ok (some (.sum monotonic))
  | .lastValue => .ok (some .lastValue)
  | .minMaxSumCount => .ok (some .minMaxSumCount)
  | .histogram values recordsExtremes =>
    match Boundaries.ofList values with
    | .ok boundaries => .ok (some (.histogram boundaries recordsExtremes))
    | .error fault => .error (.aggregation fault values)

/-- Whether what is asked for can be had. -/
def validate (a : Aggregation) : Except ConfigError Unit := a.kind?.map fun _ => ()

/-- How the series of an instrument are sampled: a histogram by its own buckets, all else uniformly
into as many slots as the machine works at once. -/
def sampling {T : Type} (filter : ExemplarFilter) (parallelism : Nat) :
    Kind → Except ConfigError (SamplingPlan T)
  | .histogram boundaries _ => .ok (.alignedBuckets filter boundaries.values)
  | _ => SamplingPlan.fixedSize filter parallelism

/-- Whether a measurement is taken. -/
def accepts {T : Type} [Quantity T] (a : Aggregation) (v : T) : Bool :=
  !Quantity.isNaN v && !(Quantity.isNegative v && a.isMonotonic)

end Aggregation

end Metering
