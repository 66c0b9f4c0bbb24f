/-!
# Collection windows

Each collection ends a `Window`. What start a metric reports for it depends on its `Temporality`.
-/

namespace Metering

/-- A point in time, in nanoseconds since the epoch. -/
abbrev Time := Int

/-- The interval that the values of a metric cover. -/
inductive Temporality where
  /-- Everything since the start of reporting. -/
  | cumulative
  /-- Everything since the previous collection. -/
  | delta
deriving DecidableEq, Inhabited

/-- The time bounds of one collection. -/
structure Window where
  /-- When reporting started. -/
  start : Time
  /-- The end of the previous collection, or `start` for the first one. -/
  last : Time
  /-- The end of this collection. -/
  time : Time
deriving DecidableEq, Inhabited

/-- The start of the interval that values of a temporality cover. -/
def Window.startFor (w : Window) : Temporality → Time
  | .cumulative => w.start
  | .delta => w.last

end Metering
