import Metering.ConfigError
import Metering.Recording

/-!
# Reservoirs

A reservoir keeps a bounded sample of the recordings offered to it in one cycle: either a uniform
sample of fixed size, or the last recording of every histogram bucket. A `SamplingPlan` says which
recordings are offered and to what reservoir, and so makes the samplers of new series.
-/

namespace Metering

variable {T : Type}

/-! ## A sample of fixed size -/

/-- A uniform sample of at most `capacity` of the recordings offered so far. `seen` counts these in a
word, which starts over from zero with the `2 ^ 64`th of them. -/
structure FixedReservoir (T : Type) where
  capacity : Nat
  seen : UInt64 := 0
  kept : List (Recording T) := []

namespace FixedReservoir

/-- The slot drawn among as many as were seen, by a number drawn at random. Among none there is no slot
to be drawn. -/
def slot? (seen : UInt64) (draw : Nat) : Option Nat :=
  if seen = 0 then none else some (draw % seen.toNat)

/-- Keep a recording while there is room. From then on it takes the slot drawn among as many as
were seen, and so is kept only if there is such a slot. -/
def offer (f : FixedReservoir T) (r : Recording T) : FixedReservoir T :=
  let seen := f.seen + 1
  if f.kept.length < f.capacity then { f with seen, kept := f.kept ++ [r] }
  else
    match slot? seen r.draw with
    | none => { f with seen }
    | some slot => { f with seen, kept := f.kept.set slot r }

/-- The kept recordings, and the reservoir emptied. -/
def drain (f : FixedReservoir T) : List (Recording T) × FixedReservoir T :=
  (f.kept, { capacity := f.capacity })

end FixedReservoir

/-! ## The last recording of every bucket -/

/-- A cell for every bucket that the boundaries delimit, which need not be well formed. -/
structure BucketReservoir (T : Type) where
  boundaries : List Binary64
  cells : List (Option (Recording T)) := List.replicate (boundaries.length + 1) none

namespace BucketReservoir

variable [Quantity T]

/-- Keep a recording as the last one of its bucket. -/
def offer (b : BucketReservoir T) (r : Recording T) : BucketReservoir T :=
  { b with cells := b.cells.set (bucketOf b.boundaries (Quantity.toBinary64 r.value)) (some r) }

/-- The kept recordings in the order of their buckets, and the reservoir emptied. -/
def drain (b : BucketReservoir T) : List (Recording T) × BucketReservoir T :=
  (b.cells.filterMap id, { b with cells := b.cells.map fun _ => none })

end BucketReservoir

/-! ## Samplers -/

inductive Reservoir (T : Type) where
  | fixed (reservoir : FixedReservoir T)
  | buckets (reservoir : BucketReservoir T)

namespace Reservoir

variable [Quantity T]

def offer (r : Recording T) : Reservoir T → Reservoir T
  | fixed f => fixed (f.offer r)
  | buckets b => buckets (b.offer r)

/-- The exemplars of the kept recordings beside the point of a series, and the reservoir emptied. -/
def drain (point : AttributeSet) : Reservoir T → List (Exemplar T) × Reservoir T
  | fixed f => (f.drain.1.map (·.exemplar point), fixed f.drain.2)
  | buckets b => (b.drain.1.map (·.exemplar point), buckets b.drain.2)

end Reservoir

/-- A reservoir with the filter that decides what reaches it. -/
structure Sampler (T : Type) where
  filter : ExemplarFilter
  reservoir : Reservoir T

namespace Sampler

variable [Quantity T]

def offer (s : Sampler T) (r : Recording T) : Sampler T :=
  if s.filter.accepts r.span then { s with reservoir := s.reservoir.offer r } else s

def drain (s : Sampler T) (point : AttributeSet) : List (Exemplar T) × Sampler T :=
  ((s.reservoir.drain point).1, { s with reservoir := (s.reservoir.drain point).2 })

end Sampler

/-! ## Plans -/

/-- What the samplers of a plan keep recordings in. -/
inductive ReservoirKind (T : Type) where
  | absent
  | fixedSize (size : Nat)
  | alignedBuckets (boundaries : List Binary64)
  /-- A reservoir of the caller's making. -/
  | custom (initial : Reservoir T)

/-- How the recordings of a series are sampled. -/
structure SamplingPlan (T : Type) where
  filter : ExemplarFilter
  kind : ReservoirKind T

namespace SamplingPlan

/-- Nothing is sampled. -/
def none : SamplingPlan T := ⟨.alwaysOff, .absent⟩

/-- Every series keeps a uniform sample of at most `size` recordings a cycle. -/
def fixedSize (filter : ExemplarFilter) (size : Nat) : Except ConfigError (SamplingPlan T) :=
  if size = 0 then .error .emptySample else .ok ⟨filter, .fixedSize size⟩

/-- Every series keeps the last recording of every bucket. -/
def alignedBuckets (filter : ExemplarFilter) (boundaries : List Binary64) : SamplingPlan T :=
  ⟨filter, .alignedBuckets boundaries⟩

/-- Every series keeps its recordings in a copy of `initial`. -/
def custom (filter : ExemplarFilter) (initial : Reservoir T) : SamplingPlan T :=
  ⟨filter, .custom initial⟩

/-- The sampler of a new series. There is none when nothing would reach it. -/
def sampler? (p : SamplingPlan T) : Option (Sampler T) :=
  match p.filter, p.kind with
  | .alwaysOff, _ => Option.none
  | _, .absent => Option.none
  | filter, .fixedSize size => some ⟨filter, .fixed { capacity := size }⟩
  | filter, .alignedBuckets boundaries => some ⟨filter, .buckets { boundaries }⟩
  | filter, .custom initial => some ⟨filter, initial⟩

end SamplingPlan

end Metering
