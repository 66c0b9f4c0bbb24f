import Metering.Attribute.Set
import Metering.Quantity
import Metering.Window

/-!
# Recordings and exemplars

A `Recording` is one measurement with all that surrounds it: its attributes, the span it was made
in, its time, and a number drawn at random for sampling. An `Exemplar` is a recording as it is
exported beside the point it belongs to.
-/

namespace Metering

/-! ## Spans -/

/-- The identity of a span in a trace. The all-zero one stands for being in no span. -/
structure SpanContext where
  trace : BitVec 128 := 0
  span : BitVec 64 := 0
  flags : BitVec 8 := 0
deriving DecidableEq, Inhabited

namespace SpanContext

/-- The context outside every span. -/
def none : SpanContext := {}

/-- Whether bit 0 of the flags is set. -/
def isSampled (c : SpanContext) : Bool := c.flags.getLsbD 0

/-- Whether both identifiers have a bit set. -/
def isValid (c : SpanContext) : Bool := c.trace != 0 && c.span != 0

/-- Whether exemplars carry the identifiers. -/
def isTraced (c : SpanContext) : Bool := c.isValid && c.isSampled

end SpanContext

/-- Which recordings are offered for sampling. -/
inductive ExemplarFilter where
  | alwaysOn
  | alwaysOff
  /-- Those made inside a sampled span. -/
  | traceBased
deriving DecidableEq

instance : Inhabited ExemplarFilter := ⟨.traceBased⟩

/-- Whether a recording made in a span is offered. -/
def ExemplarFilter.accepts (f : ExemplarFilter) (c : SpanContext) : Bool :=
  match f with
  | .alwaysOn => true
  | .alwaysOff => false
  | .traceBased => c.isSampled

/-! ## Recordings -/

/-- One measurement. `span` is the span passed along with it, or else the one it was made in;
`draw` is the number that a full sample picks its slot by. -/
structure Recording (T : Type) where
  value : T
  attributes : List Attribute := []
  span : SpanContext := .none
  time : Time := 0
  draw : Nat := 0

/-- A sampled measurement as it is exported: with the attributes that its point lacks, and with
identifiers that are all zero unless it was made in a valid and sampled span. -/
structure Exemplar (T : Type) where
  attributes : List Attribute
  time : Time
  value : T
  span : BitVec 64
  trace : BitVec 128

namespace Exemplar

variable {T : Type} [Quantity T]

/-- Exemplars are equal when all their parts are, values as numbers. -/
protected def beq (a b : Exemplar T) : Bool :=
  a.attributes == b.attributes && a.time == b.time && Quantity.numEq a.value b.value &&
    a.span == b.span && a.trace == b.trace

instance : BEq (Exemplar T) := ⟨Exemplar.beq⟩

end Exemplar

/-- The exemplar of a recording beside the point of a series. -/
def Recording.exemplar {T : Type} (r : Recording T) (point : AttributeSet) : Exemplar T where
  attributes := r.attributes.filter fun a => !point.contains a.key
  time := r.time
  value := r.value
  span := if r.span.isTraced then r.span.span else 0
  trace := if r.span.isTraced then r.span.trace else 0

end Metering
