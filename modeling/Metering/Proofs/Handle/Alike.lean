import Metering.Handle
import Metering.Proofs.Collector.Observation
import Metering.Proofs.Table.Alike

/-!
# Handles alike

What a handle makes of recordings depends on their values alone, unless it is the latest value that
counts; then it depends on the order of their times as well, and only when tallies are merged. So
two handles that take in the same values at times in the same order stay alike, whatever they
sample. -/

namespace Metering

variable {T : Type} {k : Kind}

/-- Times that correspond are in the same order. -/
def KeepsOrder (sync : Time → Time → Prop) : Prop :=
  ∀ {a a' b b' : Time}, sync a a' → sync b b' → (a < b ↔ a' < b')

namespace Kind

/-- The tallies are the same, except that the times of latest values only correspond. -/
def Alike (sync : Time → Time → Prop) : (k : Kind) → k.Tally T → k.Tally T → Prop
  | .lastValue, t, t' => t.value = t'.value ∧ sync t.time t'.time
  | .sum _, t, t' => t = t'
  | .minMaxSumCount, t, t' => t = t'
  | .histogram _ _, t, t' => t = t'

variable {sync : Time → Time → Prop}

/-- Tallies that are alike are the same but for times. -/
theorem Alike.untimed_eq {t t' : k.Tally T} (h : k.Alike sync t t') :
    k.untimed t = k.untimed t' := by
  cases k with
  | lastValue => exact congrArg (Latest.mk · 0) h.1
  | sum monotonic => exact h
  | minMaxSumCount => exact h
  | histogram boundaries recordsExtremes => exact h

variable [Quantity T]

/-- Tallies that take in a value at corresponding times are alike if they were alike or equal. -/
theorem alike_record {t t' : k.Tally T} (h : t = t' ∨ k.Alike sync t t') (v : T) {time time' : Time}
    (htime : sync time time') : k.Alike sync (k.record t v time) (k.record t' v time') := by
  have hsame (heq : t = t') : k.Alike sync (k.record t v time) (k.record t' v time') := by
    subst heq
    cases k with
    | lastValue => exact ⟨rfl, htime⟩
    | sum monotonic => rfl
    | minMaxSumCount => rfl
    | histogram boundaries recordsExtremes => rfl
  rcases h with heq | halike
  · exact hsame heq
  · cases k with
    | lastValue => exact ⟨rfl, htime⟩
    | sum monotonic => exact hsame halike
    | minMaxSumCount => exact hsame halike
    | histogram boundaries recordsExtremes => exact hsame halike

/-- Merging keeps tallies alike, if times that correspond are in the same order. -/
theorem Alike.merge (hsync : k = .lastValue → KeepsOrder sync) {a a' b b' : k.Tally T}
    (ha : k.Alike sync a a') (hb : k.Alike sync b b') :
    k.Alike sync (k.merge a b) (k.merge a' b') := by
  cases k with
  | lastValue =>
    have hsuperseded : Latest.isSuperseded a b = Latest.isSuperseded a' b' := by
      simp only [Latest.isSuperseded, ha.1, hb.1, hsync rfl ha.2 hb.2, hsync rfl hb.2 ha.2]
    show Kind.lastValue.Alike sync (Latest.merge a b) (Latest.merge a' b')
    rw [Latest.merge, Latest.merge, hsuperseded]
    split
    · exact hb
    · exact ha
  | sum monotonic => exact congrArg₂ Total.merge ha hb
  | minMaxSumCount => exact congrArg₂ Spread.merge ha hb
  | histogram boundaries recordsExtremes => exact congrArg₂ Distribution.merge ha hb

end Kind

variable (sync : Time → Time → Prop)

/-- The accumulations have tallies alike; their exemplars may differ. -/
def Accumulation.Alike (a a' : Accumulation T k) : Prop := k.Alike sync a.tally a'.tally

/-- The handles have tallies alike, or the same one if nothing was recorded; their samplers may
differ. -/
structure Handle.Alike (h h' : Handle T k) : Prop where
  recorded : h.recorded = h'.recorded
  tally : if h.recorded then k.Alike sync h.tally h'.tally else h.tally = h'.tally

variable {sync}

/-- Accumulations that are alike are the same but for times and exemplars. -/
theorem Accumulation.Alike.bare_eq {a a' : Accumulation T k} (h : a.Alike sync a') :
    a.bare = a'.bare :=
  congrArg (Accumulation.mk · []) (Kind.Alike.untimed_eq h)

variable [Quantity T]

/-- Merging keeps accumulations alike, if times that decide do so in the same way. -/
theorem Accumulation.Alike.merge (hsync : k = .lastValue → KeepsOrder sync)
    {a a' b b' : Accumulation T k} (ha : a.Alike sync a') (hb : b.Alike sync b') :
    (a.merge b).Alike sync (a'.merge b') :=
  Kind.Alike.merge hsync ha hb

namespace Handle

/-- Fresh handles are alike, whatever they sample. -/
theorem alike_fresh (k : Kind) (sampling sampling' : SamplingPlan T) :
    (fresh k sampling).Alike sync (fresh k sampling') := ⟨rfl, rfl⟩

namespace Alike

variable {h h' : Handle T k}

/-- Recordings of the same value keep handles alike. -/
theorem record (hh : h.Alike sync h') {r r' : Recording T} (hvalue : r.value = r'.value)
    (htime : sync r.time r'.time) : (h.record r).Alike sync (h'.record r') := by
  have htally := hh.tally
  refine ⟨rfl, ?_⟩
  show k.Alike sync (k.record h.tally r.value r.time) (k.record h'.tally r'.value r'.time)
  rw [hvalue]
  refine Kind.alike_record ?_ _ htime
  split at htally
  · exact .inr htally
  · exact .inl htally

/-- Drains find the same, and leave the handles alike. -/
theorem drain (hh : h.Alike sync h') (point point' : AttributeSet) :
    Option.Rel (Accumulation.Alike sync) (h.drain point).1 (h'.drain point').1 ∧
      (h.drain point).2.Alike sync (h'.drain point').2 := by
  have htally := hh.tally
  rw [Handle.drain, Handle.drain, ← hh.recorded]
  split
  · next hrecorded =>
    rw [if_pos hrecorded] at htally
    exact ⟨.some htally, rfl, rfl⟩
  · exact ⟨.none, hh⟩

end Alike

end Handle

end Metering
