import Metering.Instrument
import Metering.Text.Quoted

/-!
# Descriptions

One-line descriptions of the parts of an instrument, for logs. A part is written as its name with
its fields between braces, a list between brackets, and text in quotes with escapes.
-/

namespace Metering

namespace Description

/-- A part with its fields. -/
def part (name : String) (fields : List (String × String)) : String :=
  name ++ " \x7b " ++ ", ".intercalate (fields.map fun f => f.1 ++ ": " ++ f.2) ++ " \x7d"

def list (elements : List String) : String := "[" ++ ", ".intercalate elements ++ "]"

def optional : Option String → String
  | none => "None"
  | some text => "Some(" ++ text ++ ")"

def boundaries (values : List Binary64) : String := list (values.map (Binary64.numeral .pointed))

end Description

open Description
open Text (quoted)

/-! ## Sampling -/

def ExemplarFilter.description : ExemplarFilter → String
  | .alwaysOn => "AlwaysOn"
  | .alwaysOff => "AlwaysOff"
  | .traceBased => "TraceBased"

variable {T : Type}

def ReservoirKind.description : ReservoirKind T → String
  | .absent => "None"
  | .fixedSize size => "FixedSize(" ++ toString size ++ ")"
  | .alignedBuckets bounds =>
    "AlignedHistogramBucket(" ++ toString bounds.length ++ " boundaries)"
  | .custom _ => "Custom"

def SamplingPlan.description (p : SamplingPlan T) : String :=
  part "ReservoirFactory"
    [("filter", p.filter.description), ("kind", quoted p.kind.description)]

/-! ## Series -/

/-- A point in time, as whole seconds and the nanoseconds beyond them. -/
def Time.description (t : Time) : String :=
  part "SystemTime"
    [("tv_sec", toString (Int.fdiv t 1000000000)), ("tv_nsec", toString (Int.fmod t 1000000000))]

section Quantity

variable [Quantity T]

def Kind.describeTally : (k : Kind) → k.Tally T → String
  | .sum _, t => part "SumAccumulator" [("value", Quantity.text t.value)]
  | .lastValue, t =>
    part "LastValueAccumulator"
      [("value", Quantity.text t.value), ("recorded_at", Time.description t.time)]
  | .minMaxSumCount, t =>
    part "MinMaxSumCountAccumulator"
      [("count", toString t.count.toNat), ("sum", Quantity.text t.sum),
        ("min", Quantity.text t.min), ("max", Quantity.text t.max)]
  | .histogram bounds _, t =>
    part "HistogramAccumulator"
      [("boundaries", boundaries bounds.values),
        ("counts", list (t.buckets.map fun n => toString n.toNat)),
        ("count", toString t.count.toNat), ("total", Quantity.text t.sum),
        ("min", Quantity.text t.min), ("max", Quantity.text t.max)]

def Handle.description {k : Kind} (h : Handle T k) : String :=
  part "AggregatorHandle"
    [("accumulator", k.describeTally h.tally), ("has_recordings", toString h.recorded),
      ("samples_exemplars", toString h.sampler.isSome)]

end Quantity

/-! ## Collectors and instruments -/

def Kind.describeAggregator (k : Kind) (sampling : SamplingPlan T) : String :=
  let reservoir := ("reservoir", sampling.description)
  match k with
  | .sum monotonic => part "SumAggregator" [("monotonic", toString monotonic), reservoir]
  | .lastValue => part "LastValueAggregator" [reservoir]
  | .minMaxSumCount => part "MinMaxSumCountAggregator" [reservoir]
  | .histogram bounds recordsExtremes =>
    part "HistogramAggregator"
      [("boundaries", boundaries bounds.values), ("record_min_max", toString recordsExtremes),
        reservoir]

def Descriptor.describe (d : Descriptor) : String :=
  part "MetricDescriptor"
    [("name", quoted d.name), ("description", quoted d.description), ("unit", quoted d.unit)]

def Temporality.description : Temporality → String
  | .cumulative => "Cumulative"
  | .delta => "Delta"

def KeyFilter.description (f : KeyFilter) : String :=
  optional (f.allowed.map fun keys =>
    "\x7b" ++ ", ".intercalate (keys.map fun key => "Owned(" ++ quoted key ++ ")") ++ "\x7d")

def ReaderConfig.description (c : ReaderConfig) : String :=
  part "CollectorConfig"
    [("temporality", c.temporality.description), ("cardinality_limit", toString c.limit),
      ("max_idle_cycles", optional (c.maxIdle.map toString)),
      ("allowed_attribute_keys", c.filter.description)]

def Collector.description {k : Kind} (c : Collector T k) : String :=
  part "Collector"
    [("aggregator", k.describeAggregator c.sampling), ("descriptor", c.stream.descriptor.describe),
      ("config", c.config.description), ("series", toString c.live.length),
      ("overflow_count", toString c.overflowCount.toNat)]

def Aggregation.description (a : Aggregation) : String :=
  match a with
  | .sum monotonic => part a.name [("monotonic", toString monotonic)]
  | .histogram values recordsExtremes =>
    part a.name
      [("boundaries", boundaries values), ("record_min_max", toString recordsExtremes)]
  | _ => a.name

def Instrument.description (i : Instrument T) : String :=
  part "InstrumentStorage"
    [("descriptor", i.stream.descriptor.describe), ("aggregation", i.aggregation.description),
      ("reader_count", toString i.readers.count)]

end Metering
