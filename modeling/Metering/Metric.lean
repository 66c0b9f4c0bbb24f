import Metering.Kind
import Metering.Resource
import Metering.Table

/-!
# Metrics

A `Metric` is what a reader gets from a collection: one point for every reported series. A point
shows a `Reading` of the series' tally, whose form its kind fixes.
-/

namespace Metering

/-! ## Readings -/

/-- A histogram as it is exported, with the extremes if they were recorded and there are any. -/
structure HistogramReading (T : Type) where
  count : UInt64
  sum : T
  min : Option T
  max : Option T
  bounds : List Binary64
  buckets : List UInt64

/-- A summary as it is exported, with the values of some quantiles. -/
structure SummaryReading (T : Type) where
  count : UInt64
  sum : T
  quantiles : List (Binary64 × Binary64)

namespace Kind

/-- What a point of a kind shows. -/
abbrev Reading (T : Type) : Kind → Type
  | .sum _ => Total T
  | .lastValue => Latest T
  | .minMaxSumCount => SummaryReading T
  | .histogram _ _ => HistogramReading T

variable {T : Type} [Quantity T]

/-- The reading of a tally. A summary shows the minimum as the quantile at 0 and the maximum as
the one at 1. -/
def read : (k : Kind) → k.Tally T → k.Reading T
  | .sum _, t => t
  | .lastValue, t => t
  | .minMaxSumCount, t =>
    { count := t.count
      sum := t.sum
      quantiles := [(.zero, Quantity.toBinary64 t.min), (.ofInt 1, Quantity.toBinary64 t.max)] }
  | .histogram boundaries recordsExtremes, t =>
    let hasExtremes := recordsExtremes && decide (0 < t.count)
    { count := t.count
      sum := t.sum
      min := if hasExtremes then some t.min else none
      max := if hasExtremes then some t.max else none
      bounds := boundaries.values
      buckets := t.buckets }

end Kind

/-! ## Points and metrics -/

/-- One series in a metric: its attributes in key order, its reading and its exemplars. -/
structure Point (T : Type) (k : Kind) where
  attributes : List Attribute
  reading : k.Reading T
  exemplars : List (Exemplar T)

/-- The series that a collection reports, under the identity of their instrument. -/
structure Metric (T : Type) (k : Kind) where
  stream : Stream
  temporality : Temporality
  /-- The start of the interval that the points cover. -/
  start : Time
  /-- The end of that interval. -/
  time : Time
  points : List (Point T k)

variable {T : Type} {k : Kind}

/-- The point of a series. -/
def Accumulation.point [Quantity T] (series : AttributeSet) (a : Accumulation T k) : Point T k :=
  ⟨series.toList, k.read a.tally, a.exemplars⟩

namespace Metric

def size (m : Metric T k) : Nat := m.points.length

def isEmpty (m : Metric T k) : Bool := m.size == 0

/-- The metric that reports accumulations for a window. -/
def ofSeries [Quantity T] (stream : Stream) (temporality : Temporality) (window : Window)
    (series : Table AttributeSet (Accumulation T k)) : Metric T k where
  stream := stream
  temporality := temporality
  start := window.startFor temporality
  time := window.time
  points := series.entries.map fun e => e.2.point e.1

end Metric

end Metering
