import Metering.Collector.Config
import Metering.Handle
import Metering.Metric

/-!
# Collectors

A `Collector` keeps the series of one instrument for one reader. Recordings find their series by
attribute set; a new set opens a series until the limit is reached, and from then on shares the
overflow series. Series can be held by those who record into them often.

Every operation is made of steps that each take effect at once: a recording acquires its series,
folds itself in and releases the series again.
-/

namespace Metering

variable {T : Type} {k : Kind} [Quantity T]

/-- A series in use. -/
structure Series (T : Type) (k : Kind) where
  /-- Tells this series from all others of the collector, earlier ones included. -/
  id : Nat
  attributes : AttributeSet
  /-- How many recorders have the series in hand. -/
  holders : Nat
  handle : Handle T k

/-- What is kept of a series from one collection to the next. -/
structure Retained (T : Type) (k : Kind) where
  /-- Everything reported so far, if reports are cumulative. -/
  cumulative : Option (Accumulation T k) := none
  /-- How many collections in a row found nothing. -/
  idle : Nat := 0

/-- The series of one instrument for one reader. -/
structure Collector (T : Type) (k : Kind) where
  sampling : SamplingPlan T
  stream : Stream
  config : ReaderConfig
  /-- The series that recordings find, in the order in which they were opened. -/
  live : List (Series T k) := []
  /-- Series that a shutdown gave up while somebody held them. -/
  detached : List (Series T k) := []
  retained : Table AttributeSet (Retained T k) := {}
  /-- The end of the previous collection. -/
  lastCollection : Option Time := none
  /-- How many times the overflow series stood in for another. -/
  overflowCount : UInt64 := 0
  shutDown : Bool := false
  /-- The identity of the next series. -/
  nextId : Nat := 0

namespace Collector

/-! ## Finding series -/

/-- A collector without series. -/
def new (sampling : SamplingPlan T) (stream : Stream) (config : ReaderConfig) : Collector T k :=
  { sampling, stream, config }

/-- The live series of an attribute set. -/
def find? (c : Collector T k) (set : AttributeSet) : Option (Series T k) :=
  c.live.find? (·.attributes == set)

/-- How many series are live, the overflow series included. -/
def seriesCount (c : Collector T k) : Nat := c.live.length

/-- Whether as many series are live as the limit allows, the overflow series aside. -/
def isAtLimit (c : Collector T k) : Bool :=
  -- the overflow series takes no room of its own
  decide (c.config.limit ≤ c.seriesCount - if (c.find? .overflow).isSome then 1 else 0)

/-- Change the series of an identity, be it live or detached. -/
def updateSeries (c : Collector T k) (id : Nat) (f : Series T k → Series T k) : Collector T k :=
  let update s := if s.id = id then f s else s
  { c with live := c.live.map update, detached := c.detached.map update }

/-- The series of an identity, be it live or detached. -/
def series? (c : Collector T k) (id : Nat) : Option (Series T k) :=
  (c.live ++ c.detached).find? (·.id == id)

/-! ## Acquiring and releasing -/

/-- Open a series, already in the hand of one recorder. -/
def openSeries (c : Collector T k) (set : AttributeSet) : Nat × Collector T k :=
  let series := { id := c.nextId, attributes := set, holders := 1, handle := .fresh k c.sampling }
  (c.nextId, { c with live := c.live ++ [series], nextId := c.nextId + 1 })

/-- Take a live series in hand. -/
def take (c : Collector T k) (s : Series T k) : Nat × Collector T k :=
  (s.id, c.updateSeries s.id fun s => { s with holders := s.holders + 1 })

/-- Take in hand the series of a set: the live one, or else a new one, or else, at the limit, the
overflow series. The answer is the identity of the series. -/
def acquire (c : Collector T k) (set : AttributeSet) : Nat × Collector T k :=
  match c.find? set with
  | some s => c.take s
  | none =>
    if c.isAtLimit then
      -- counted also when this is what opens the overflow series
      let c := { c with overflowCount := c.overflowCount + 1 }
      match c.find? .overflow with
      | some s => c.take s
      | none => c.openSeries .overflow
    else c.openSeries set

/-- Take in hand the series of a set without opening any: the live one, or else, at the limit, a
live overflow series. Recorders look here first, since looking keeps nobody else from looking; only
if there is no answer do they go on to `acquire`, by when the collector may have changed. -/
def acquire? (c : Collector T k) (set : AttributeSet) : Option (Nat × Collector T k) :=
  match c.find? set with
  | some s => some (c.take s)
  | none =>
    if c.isAtLimit then
      (c.find? .overflow).map fun s => { c with overflowCount := c.overflowCount + 1 }.take s
    else none

/-- Give a series out of hand. A detached one that nobody holds any more is gone. -/
def release (c : Collector T k) (id : Nat) : Collector T k :=
  let c := c.updateSeries id fun s => { s with holders := s.holders - 1 }
  { c with detached := c.detached.filter fun s => decide (0 < s.holders) }

/-! ## Recording -/

/-- Fold a recording into a series that is in hand. -/
def recordHeld (c : Collector T k) (id : Nat) (r : Recording T) : Collector T k :=
  c.updateSeries id fun s => { s with handle := s.handle.record r }

/-- Drain a series that is in hand, with exemplars for the point of `point`. -/
def drainHeld (c : Collector T k) (id : Nat) (point : AttributeSet) :
    Option (Accumulation T k) × Collector T k :=
  ((c.series? id).bind fun s => (s.handle.drain point).1,
    c.updateSeries id fun s => { s with handle := (s.handle.drain point).2 })

/-- Record into the series that the allowed attributes identify. A collector that was shut down
ignores recordings. -/
def record (c : Collector T k) (r : Recording T) : Collector T k :=
  if c.shutDown then c
  else
    let (id, c) := c.acquire (c.config.filter.apply r.attributes)
    (c.recordHeld id r).release id

end Collector

end Metering
