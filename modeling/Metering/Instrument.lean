import Metering.Aggregation
import Metering.Collector.Cycle

/-!
# Instruments

An `Instrument` passes every measurement on to the collector of each of its readers. Readers are
known by their place in the list that the instrument was set up with.
-/

namespace Metering

variable {T : Type} [Quantity T]

/-- The readers of an instrument. -/
inductive Readers (T : Type) where
  /-- So many readers of an instrument that keeps nothing. -/
  | idle (count : Nat)
  /-- One collector per reader. -/
  | collecting (k : Kind) (collectors : List (Collector T k))

/-- A metric of whatever kind. -/
abbrev Report (T : Type) := (k : Kind) × Metric T k

namespace Readers

def count : Readers T → Nat
  | idle count => count
  | collecting _ collectors => collectors.length

def record (r : Recording T) : Readers T → Readers T
  | idle count => idle count
  | collecting k collectors => collecting k (collectors.map (·.record r))

/-- Collect for one reader; there is nothing for a reader that does not exist. -/
def collect (i : Nat) (start time : Time) : Readers T → Option (Report T) × Readers T
  | idle count => (none, idle count)
  | collecting k collectors =>
    match collectors[i]? with
    | none => (none, collecting k collectors)
    | some c =>
      let (m, c) := c.collect start time
      (m.map (⟨k, ·⟩), collecting k (collectors.set i c))

/-- Shut every reader's collector down, with one last report for each. -/
def shutdown (start time : Time) : Readers T → List (Option (Report T)) × Readers T
  | idle count => (List.replicate count none, idle count)
  | collecting k collectors =>
    let last := collectors.map (·.shutdown start time)
    (last.map (·.1.map (⟨k, ·⟩)), collecting k (last.map (·.2)))

end Readers

/-- An instrument with its readers. -/
structure Instrument (T : Type) where
  stream : Stream
  aggregation : Aggregation
  readers : Readers T

namespace Instrument

/-- Set an instrument up. It needs a reader before anything else, and then an aggregation without
fault. -/
def new (stream : Stream) (aggregation : Aggregation) (filter : ExemplarFilter)
    (parallelism : Nat) (configs : List ReaderConfig) : Except ConfigError (Instrument T) := do
  if configs.isEmpty then throw (.noReader stream.descriptor.name)
  match ← aggregation.kind? with
  | none => return ⟨stream, aggregation, .idle configs.length⟩
  | some k =>
    let sampling ← Aggregation.sampling filter (max parallelism 1) k
    return ⟨stream, aggregation, .collecting k (configs.map (Collector.new sampling stream))⟩

/-- Record a measurement for every reader, if the aggregation takes it. -/
def record (i : Instrument T) (r : Recording T) : Instrument T :=
  if i.aggregation.accepts r.value then { i with readers := i.readers.record r } else i

/-- Collect for one reader. -/
def collect (i : Instrument T) (reader : Nat) (start time : Time) :
    Option (Report T) × Instrument T :=
  let (report, readers) := i.readers.collect reader start time
  (report, { i with readers })

/-- Shut the instrument down, with one last report for each reader. -/
def shutdown (i : Instrument T) (start time : Time) : List (Option (Report T)) × Instrument T :=
  let (reports, readers) := i.readers.shutdown start time
  (reports, { i with readers })

end Instrument

end Metering
