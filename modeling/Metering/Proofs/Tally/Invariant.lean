import Metering.Handle

/-!
# Properties that tallies keep

A property which the tally of nothing has, and which recording and joining keep, holds of whatever a
handle yields (`Kind.Keeps`). Whoever holds tallies and only records, drains and joins has nothing
else to show of them.
-/

namespace Metering

variable {T : Type} {k : Kind} [Quantity T]

/-- A property that the tally of nothing has and that recording and joining keep. -/
structure Kind.Keeps (k : Kind) (P : k.Tally T → Prop) : Prop where
  fresh : P k.fresh
  record {t : k.Tally T} (v : T) (time : Time) : P t → P (k.record t v time)
  merge {previous current : k.Tally T} : P previous → P current → P (k.merge previous current)

/-- What the handle of a series can come to be: from a new one, by recording and draining in any
order. -/
inductive Handle.Reached (sampling : SamplingPlan T) : Handle T k → Prop
  | fresh : Reached sampling (.fresh k sampling)
  | record {h : Handle T k} (r : Recording T) : Reached sampling h → Reached sampling (h.record r)
  | drain {h : Handle T k} (point : AttributeSet) :
      Reached sampling h → Reached sampling (h.drain point).2

namespace Kind.Keeps

variable {P : k.Tally T → Prop} {h : Handle T k}

/-- What a drain finds is the tally of the handle. -/
theorem of_drain (hh : P h.tally) {point : AttributeSet} {a : Accumulation T k}
    (ha : (h.drain point).1 = some a) : P a.tally := by
  unfold Handle.drain at ha
  split at ha
  · rw [← Option.some.inj ha]
    exact hh
  · cases ha

/-- A drain leaves the tally of nothing, unless it changes nothing. -/
theorem drain (hP : k.Keeps P) (hh : P h.tally) (point : AttributeSet) :
    P (h.drain point).2.tally := by
  unfold Handle.drain
  split
  · exact hP.fresh
  · exact hh

theorem reached (hP : k.Keeps P) {sampling : SamplingPlan T} (hh : h.Reached sampling) :
    P h.tally := by
  induction hh with
  | fresh => exact hP.fresh
  | record r _ ih => exact hP.record r.value r.time ih
  | drain point _ ih => exact hP.drain ih point

end Kind.Keeps

end Metering
