import Metering.Proofs.Collector.Tallies
import Metering.Proofs.Histogram

/-!
# Histogram reports

However histograms are recorded, drained, joined and taken apart, their buckets hold what their count
counts; and what a collector reports of a histogram is of that kind, in any run.
-/

namespace Metering

open Quantity

variable {T : Type} [Quantity T]

/-- **Histograms are in balance.** Take a histogram over boundaries without fault. Whatever arises
from its handles has one bucket more than there are boundaries, and as many measurements in the
buckets as were counted, modulo `2 ^ 64`. A measurement that is a number adds one to the one bucket
that it lies in and to no other, and that is what the next drain finds. The points that a collector
reports show the boundaries and are in balance, in any run. -/
theorem histograms_are_balanced [Numeric T] (boundaries : Boundaries) (recordsExtremes : Bool)
    (sampling : SamplingPlan T) :
    (∀ a, HistogramArises boundaries recordsExtremes sampling a →
      Distribution.Balanced boundaries a.tally) ∧
    (∀ h : Handle T (.histogram boundaries recordsExtremes), h.Reached sampling →
      ∀ r : Recording T, isNaN r.value = false →
        (∃ i ≤ boundaries.values.length,
          (∀ j, InBucket boundaries.values (toBinary64 r.value) j ↔ j = i) ∧
            ∀ j : Nat, (h.record r).tally.buckets[j]? =
              h.tally.buckets[j]?.map fun n => if j = i then n + 1 else n) ∧
        ∀ point, ((h.record r).drain point).1.map (·.tally) = some (h.record r).tally) ∧
    ∀ (stream : Stream) (config : ReaderConfig) (commands : List (Command T))
      (m : Metric T (.histogram boundaries recordsExtremes)),
      .reported (some m) ∈ ((Collector.new sampling stream config).run commands).1 →
        ∀ p ∈ m.points, p.reading.bounds = boundaries.values ∧
          p.reading.buckets.length = p.reading.bounds.length + 1 ∧
          p.reading.buckets.sum = p.reading.count := by
  -- every tally of the run arises from a fresh one by steps that keep the balance
  have hkeeps := Distribution.keeps_balanced (T := T) boundaries recordsExtremes
  refine ⟨fun a ha => ha.balanced, fun h hh r hr => ⟨?_, fun point => ?_⟩, ?_⟩
  · have hbalanced : Distribution.Balanced boundaries h.tally := hkeeps.reached hh
    obtain ⟨i, hi, hbucket, hrecord⟩ := hbalanced.buckets_record hr
    rw [hbalanced.length] at hi
    exact ⟨i, by omega, hbucket, hrecord⟩
  · rw [Handle.drain_tally]
    rfl
  · intro stream config commands m hm p hp
    have hnew := Collector.Filled.new (Distribution.Balanced (T := T) boundaries) sampling stream
      (k := .histogram boundaries recordsExtremes) config
    obtain ⟨t, ht, hreading⟩ := hnew.reading_reported hkeeps hm p hp
    rw [hreading]
    exact ⟨rfl, ht.length, ht.sum⟩

/-- Buckets below 0, from 0 to 5, and from 5 on. -/
def threeBuckets : Boundaries := ⟨[.ofInt 0, .ofInt 5], by decide +kernel⟩

/-- A NaN is recorded, which goes into the first bucket, and then the number 5. What a drain finds
before that is joined with itself, and taken away again. -/
theorem histograms_are_balanced_after_nan :
    let k : Kind := .histogram threeBuckets true
    let h : Handle Binary64 k := (Handle.fresh k .none).record { value := .nan }
    let r : Recording Binary64 := { value := .ofInt 5 }
    let a : Accumulation Binary64 k := ⟨h.tally, []⟩
    let c : Collector Binary64 k := .new .none default {}
    Distribution.Within a.tally (a.merge a).tally ∧
      HistogramArises threeBuckets true .none (a.diff (a.merge a)) ∧
      Distribution.Balanced threeBuckets (a.diff (a.merge a)).tally ∧
      h.Reached .none ∧ isNaN r.value = false ∧
      (∀ j, InBucket threeBuckets.values r.value j ↔ j = 2) ∧
      h.tally.buckets = [1, 0, 0] ∧ (h.record r).tally.buckets = [1, 0, 1] ∧
      ∃ m, .reported (some m) ∈ (c.run [.record { value := .nan }, .record r, .collect 0 1]).1 ∧
        m.points.map (·.reading.buckets) = [[1, 0, 1]] ∧
        ∀ p ∈ m.points, p.reading.buckets.sum = p.reading.count := by
  intro k h r a c
  obtain ⟨harises, hbucket, hreports⟩ :=
    histograms_are_balanced threeBuckets true (T := Binary64) .none
  have hreached : h.Reached .none := .record _ .fresh
  have hdrain : (h.drain default).1 = some a := rfl
  have ha : HistogramArises threeBuckets true .none a := .drained hreached hdrain
  have hbelow : (a.tally.buckets.zip (a.merge a).tally.buckets).all (fun e => e.1 ≤ e.2) = true := by
    decide +kernel
  have hwithin : Distribution.Within a.tally (a.merge a).tally :=
    ⟨by decide +kernel, fun e he => of_decide_eq_true (List.all_eq_true.1 hbelow e he)⟩
  have hdiff : HistogramArises threeBuckets true .none (a.diff (a.merge a)) :=
    .differed ha (.merged ha ha) hwithin
  have hr : isNaN r.value = false := by decide +kernel
  obtain ⟨⟨i, -, hi, -⟩, -⟩ := hbucket h hreached r hr
  have htwo : (2 : Nat) = i := (hi 2).1 (threeBuckets.inBucket_iff hr |>.2 (by decide +kernel))
  subst htwo
  refine ⟨hwithin, hdiff, harises _ hdiff, hreached, hr, hi, by decide +kernel, by decide +kernel, ?_⟩
  obtain ⟨m, hm⟩ : ∃ m, ((c.run [.record { value := .nan }, .record r]).2.collect 0 1).1 = some m :=
    Option.isSome_iff_exists.1 (by decide +kernel)
  have hmem : .reported (some m) ∈
      (c.run [.record { value := .nan }, .record r, .collect 0 1]).1 := by
    rw [← hm]
    exact List.mem_cons_of_mem _ (List.mem_cons_of_mem _ List.mem_cons_self)
  refine ⟨m, hmem, ?_, fun p hp => (hreports default {} _ m hmem p hp).2.2⟩
  have hbuckets : ((c.run [.record { value := .nan }, .record r]).2.collect 0 1).1.map
      (fun m => m.points.map (·.reading.buckets)) = some [[1, 0, 1]] := by decide +kernel
  rw [hm] at hbuckets
  exact Option.some.inj hbuckets

end Metering
