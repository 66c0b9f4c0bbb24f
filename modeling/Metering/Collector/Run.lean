import Metering.Collector.Cycle

/-!
# Runs of a collector

A `Command` is one use of a collector and a `Reply` its answer. A run carries out commands one
after another and yields the replies.
-/

namespace Metering

variable {T : Type} {k : Kind} [Quantity T]

/-- One use of a collector. -/
inductive Command (T : Type) where
  | record (r : Recording T)
  /-- Take the series of a set in hand. -/
  | hold (set : AttributeSet)
  | recordHeld (id : Nat) (r : Recording T)
  | drainHeld (id : Nat) (point : AttributeSet)
  | release (id : Nat)
  | collect (start time : Time)
  | shutdown (start time : Time)

/-- The answer to a command. -/
inductive Reply (T : Type) (k : Kind) where
  | done
  /-- The series in hand. -/
  | holding (id : Nat)
  | drained (a : Option (Accumulation T k))
  | reported (m : Option (Metric T k))

namespace Collector

/-- Carry out a command. -/
def perform (c : Collector T k) : Command T → Reply T k × Collector T k
  | .record r => (.done, c.record r)
  | .hold set => let (id, c) := c.acquire set; (.holding id, c)
  | .recordHeld id r => (.done, c.recordHeld id r)
  | .drainHeld id point => let (a, c) := c.drainHeld id point; (.drained a, c)
  | .release id => (.done, c.release id)
  | .collect start time => let (m, c) := c.collect start time; (.reported m, c)
  | .shutdown start time => let (m, c) := c.shutdown start time; (.reported m, c)

/-- Carry out commands one after another. -/
def run (c : Collector T k) : List (Command T) → List (Reply T k) × Collector T k
  | [] => ([], c)
  | command :: rest =>
    let (reply, c) := c.perform command
    let (replies, c) := c.run rest
    (reply :: replies, c)

end Collector

end Metering
