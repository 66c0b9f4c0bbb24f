import Metering.Collector.Run

/-!
# What can be observed of a collector

Beside its exemplars a collector answers with numbers: the attributes and readings of points, which
collections and drains come up with nothing, the identities of series, and how many series and
overflows there are. A reply without its exemplars and the times of its measurements is `Reply.bare`;
what is observed in a run, step by step, are its `observations`.
-/

namespace Metering

variable {T : Type} {k : Kind}

/-! ## Numbers alone -/

namespace Kind

/-- A tally without the time of its measurement. -/
def untimed : (k : Kind) → k.Tally T → k.Tally T
  | .lastValue, t => { t with time := 0 }
  | .sum _, t => t
  | .minMaxSumCount, t => t
  | .histogram _ _, t => t

/-- A reading without the time of its measurement. -/
def untimedReading : (k : Kind) → k.Reading T → k.Reading T
  | .lastValue, r => { r with time := 0 }
  | .sum _, r => r
  | .minMaxSumCount, r => r
  | .histogram _ _, r => r

theorem untimedReading_read [Quantity T] (k : Kind) (t : k.Tally T) :
    k.untimedReading (k.read t) = k.read (k.untimed t) := by
  cases k <;> rfl

end Kind

/-- An accumulation without its exemplars and times. -/
def Accumulation.bare (a : Accumulation T k) : Accumulation T k := ⟨k.untimed a.tally, []⟩

/-- A point without its exemplars and times. -/
def Point.bare (p : Point T k) : Point T k :=
  { p with reading := k.untimedReading p.reading, exemplars := [] }

/-- A metric without its exemplars and the times of its measurements. -/
def Metric.bare (m : Metric T k) : Metric T k := { m with points := m.points.map Point.bare }

/-- A reply without its exemplars and the times of its measurements. -/
def Reply.bare : Reply T k → Reply T k
  | .done => .done
  | .holding id => .holding id
  | .drained a => .drained (a.map Accumulation.bare)
  | .reported m => .reported (m.map Metric.bare)

/-- The bare point of a series shows its bare accumulation. -/
theorem Accumulation.bare_point [Quantity T] (a : Accumulation T k) (series : AttributeSet) :
    (a.point series).bare = a.bare.point series := by
  rw [point, Point.bare, k.untimedReading_read]
  rfl

/-! ## Over a run -/

/-- What is observed of one step: its answer, and the counts after it. -/
structure Observation (T : Type) (k : Kind) where
  reply : Reply T k
  seriesCount : Nat
  overflowCount : UInt64

namespace Collector

variable [Quantity T]

/-- What is observed of a command. -/
def observe (c : Collector T k) (command : Command T) : Observation T k where
  reply := (c.perform command).1.bare
  seriesCount := (c.perform command).2.seriesCount
  overflowCount := (c.perform command).2.overflowCount

/-- What is observed of commands that are carried out one after another. -/
def observations (c : Collector T k) : List (Command T) → List (Observation T k)
  | [] => []
  | command :: rest => c.observe command :: (c.perform command).2.observations rest

end Collector

end Metering
