import Metering.Kind

/-!
# Series handles

A `Handle` takes in the recordings of one series and yields, when it is drained, what was recorded
since the last time. A drain leaves it as new.
-/

namespace Metering

variable {T : Type} [Quantity T]

/-- The running state of one series. -/
structure Handle (T : Type) (k : Kind) where
  tally : k.Tally T
  /-- Whether anything was recorded since the last drain. -/
  recorded : Bool
  sampler : Option (Sampler T)

namespace Handle

variable {k : Kind}

/-- A handle without recordings. -/
def fresh (k : Kind) (sampling : SamplingPlan T) : Handle T k :=
  ⟨k.fresh, false, sampling.sampler?⟩

/-- Fold a recording in, and offer it for sampling. -/
def record (h : Handle T k) (r : Recording T) : Handle T k where
  tally := k.record h.tally r.value r.time
  recorded := true
  sampler := h.sampler.map (·.offer r)

/-- What was recorded since the last drain, if anything was, with the exemplars for the point of
a series; and the handle as it goes on. -/
def drain (h : Handle T k) (point : AttributeSet) : Option (Accumulation T k) × Handle T k :=
  if h.recorded then
    let exemplars := (h.sampler.map fun s => (s.drain point).1).getD []
    (some ⟨h.tally, exemplars⟩, ⟨k.fresh, false, h.sampler.map fun s => (s.drain point).2⟩)
  else (none, h)

end Handle

end Metering
