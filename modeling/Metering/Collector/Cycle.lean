import Metering.Collector

/-!
# Collection cycles

A collection runs through a `Cycle`: it notes the live series, drains them one after another,
evicts those that have been idle for too long, and at last reports. Recordings may come between any
two of these steps; whatever a drain did not find, the eviction or the next collection does.
-/

namespace Metering

variable {T : Type} {k : Kind} [Quantity T]

/-- A collection under way. -/
structure Cycle (T : Type) (k : Kind) where
  window : Window
  /-- The series still to be drained. -/
  pending : List Nat
  /-- What was drained so far. -/
  fresh : Table AttributeSet (Accumulation T k) := {}
  /-- The series evicted so far. -/
  evicted : List AttributeSet := []

namespace Collector

/-! ## Draining -/

/-- Begin a collection of all live series. Its window starts where the previous one ended. -/
def beginCycle (c : Collector T k) (start time : Time) : Cycle T k × Collector T k :=
  ({ window := ⟨start, c.lastCollection.getD start, time⟩, pending := c.live.map (·.id) },
    { c with lastCollection := some time })

/-- Drain one live series, and count the collections that found nothing in it. -/
def drainSeries (c : Collector T k) (cycle : Cycle T k) (id : Nat) : Cycle T k × Collector T k :=
  match c.live.find? (·.id == id) with
  | none => (cycle, c)
  | some s =>
    let (found, handle) := s.handle.drain s.attributes
    let c := c.updateSeries id fun s => { s with handle }
    let retain idle := c.retained.upsert s.attributes fun old =>
      { old.getD {} with idle := idle (old.getD {}).idle }
    match found with
    | some a =>
      ({ cycle with fresh := cycle.fresh.insert s.attributes a },
        { c with retained := retain fun _ => 0 })
    | none => (cycle, { c with retained := retain (· + 1) })

/-- Drain the next of the pending series. -/
def drainNext (c : Collector T k) (cycle : Cycle T k) : Cycle T k × Collector T k :=
  match cycle.pending with
  | [] => (cycle, c)
  | id :: rest => c.drainSeries { cycle with pending := rest } id

/-- Drain all pending series. -/
def drainPending (c : Collector T k) (cycle : Cycle T k) : Cycle T k × Collector T k :=
  cycle.pending.foldl (fun s _ => s.2.drainNext s.1) (cycle, c)

/-! ## Eviction -/

/-- Evict a series unless somebody holds it. A recording that came after its drain goes into this
cycle. -/
def evict (c : Collector T k) (cycle : Cycle T k) (set : AttributeSet) :
    Cycle T k × Collector T k :=
  let gone := { cycle with evicted := cycle.evicted ++ [set] }
  match c.find? set with
  -- what is kept of a set without a live series is forgotten as well
  | none => (gone, c)
  | some s =>
    if 0 < s.holders then (cycle, c)
    else
      let c := { c with live := c.live.filter fun other => other.id != s.id }
      -- nobody can record into the series any more, so the last drain misses nothing
      match (s.handle.drain set).1 with
      | none => (gone, c)
      | some late =>
        ({ gone with fresh := gone.fresh.upsert set fun old => (old.map (·.merge late)).getD late },
          c)

/-- The series that have been idle for so many collections. -/
def idleSeries (c : Collector T k) (limit : Nat) : List AttributeSet :=
  (c.retained.entries.filter fun e => decide (limit ≤ e.2.idle)).map (·.1)

/-- Evict the series that have been idle for too long. -/
def evictIdle (c : Collector T k) (cycle : Cycle T k) : Cycle T k × Collector T k :=
  match c.config.maxIdle with
  | none => (cycle, c)
  | some limit => (c.idleSeries limit).foldl (fun s set => s.2.evict s.1 set) (cycle, c)

/-! ## Reporting -/

/-- Add what a cycle drained from a series to all that was ever drained from it. -/
def absorb (retained : Table AttributeSet (Retained T k)) (set : AttributeSet)
    (a : Accumulation T k) : Table AttributeSet (Retained T k) :=
  retained.upsert set fun old =>
    let old := old.getD {}
    { old with cumulative := some ((old.cumulative.map (·.merge a)).getD a) }

/-- Add what a cycle drained to what is kept. -/
def absorbAll (retained : Table AttributeSet (Retained T k))
    (fresh : Table AttributeSet (Accumulation T k)) : Table AttributeSet (Retained T k) :=
  fresh.entries.foldl (fun retained (set, a) => absorb retained set a) retained

/-- End a cycle: report what was drained or, cumulatively, all that was ever drained from the
series that are kept; then forget the evicted series. Nothing is reported if there is nothing. -/
def finish (c : Collector T k) (cycle : Cycle T k) : Option (Metric T k) × Collector T k :=
  let (output, retained) :=
    match c.config.temporality with
    | .delta => (cycle.fresh, c.retained)
    | .cumulative =>
      let retained := absorbAll c.retained cycle.fresh
      (retained.filterMap (·.cumulative), retained)
  -- forgotten only now: the report still has what the evicted series recorded
  let c := { c with retained := retained.eraseAll cycle.evicted }
  if output.isEmpty then (none, c)
  else (some (.ofSeries c.stream c.config.temporality cycle.window output), c)

/-- Collect for the reader: a whole cycle with nothing in between. -/
def collect (c : Collector T k) (start time : Time) : Option (Metric T k) × Collector T k :=
  let (cycle, c) := c.beginCycle start time
  let (cycle, c) := c.drainPending cycle
  let (cycle, c) := c.evictIdle cycle
  c.finish cycle

/-- Collect for the last time and give up all series. A second shutdown does nothing. -/
def shutdown (c : Collector T k) (start time : Time) : Option (Metric T k) × Collector T k :=
  if c.shutDown then (none, c)
  else
    -- shut down first: from here on recordings are ignored
    let (last, c) := { c with shutDown := true }.collect start time
    (last, { c with
      live := []
      detached := c.detached ++ c.live.filter fun s => decide (0 < s.holders)
      retained := {} })

end Collector

end Metering
