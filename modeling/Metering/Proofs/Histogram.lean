import Metering.Proofs.Boundaries
import Metering.Proofs.Tally.Invariant
import Mathlib.Algebra.BigOperators.Group.List.Basic
import Mathlib.Data.UInt

/-!
# Histograms in balance

The buckets of a histogram hold what its count counts (`Distribution.Balanced`). Recording keeps the
balance, since it adds one to the count and one to a bucket that exists; so do joining, and taking
a histogram away from one that it lies `Within`. Which bucket a measurement goes into is settled by
the boundaries next to it.
-/

namespace Metering

open Quantity

/-! ## Sums of words -/

/-- To count once more in one bucket is to count once more in all. -/
theorem sum_modify_add_one {l : List UInt64} {i : Nat} (hi : i < l.length) :
    (l.modify i (· + 1)).sum = l.sum + 1 := by
  induction l generalizing i with
  | nil => exact absurd hi (Nat.not_lt_zero i)
  | cons a rest ih =>
    cases i with
    | zero =>
      rw [List.modify_zero_cons, List.sum_cons, List.sum_cons]
      exact add_right_comm a 1 rest.sum
    | succ i =>
      rw [List.modify_succ_cons, List.sum_cons, List.sum_cons, ih (Nat.lt_of_succ_lt_succ hi)]
      exact (add_assoc a rest.sum 1).symm

/-- Counts that are taken away one by one are taken away from the sum. -/
theorem sum_zipWith_countMinus {p c : List UInt64} (hle : List.Forall₂ (· ≤ ·) p c) :
    (List.zipWith (fun x y => countMinus y x) p c).sum = c.sum - p.sum := by
  induction hle with
  | nil => rfl
  | cons hxy _ ih =>
    rw [List.zipWith_cons_cons, List.sum_cons, List.sum_cons, List.sum_cons, ih, countMinus,
      if_pos hxy]
    exact sub_add_sub_comm ..

/-! ## Balance -/

namespace Distribution

variable {T : Type}

/-- There is a bucket below, between and above the boundaries, and the buckets hold as many
measurements as were counted. Counts are words, so the sum is one modulo `2 ^ 64`. -/
structure Balanced (boundaries : Boundaries) (d : Distribution T) : Prop where
  length : d.buckets.length = boundaries.values.length + 1
  sum : d.buckets.sum = d.count

/-- The count and each bucket of one histogram are at most those of another. -/
structure Within (previous current : Distribution T) : Prop where
  count : previous.count ≤ current.count
  buckets : ∀ e ∈ previous.buckets.zip current.buckets, e.1 ≤ e.2

namespace Balanced

variable [Quantity T] {boundaries : Boundaries} {d previous current : Distribution T}

/-- An empty distribution is balanced. -/
theorem fresh (boundaries : Boundaries) :
    (Distribution.fresh boundaries : Distribution T).Balanced boundaries where
  length := List.length_replicate
  sum := (List.sum_replicate _ _).trans (nsmul_zero _)

omit [Quantity T] in
/-- There is a bucket for every measurement. -/
theorem bucketOf_lt (h : d.Balanced boundaries) (x : Binary64) :
    bucketOf boundaries.values x < d.buckets.length := by
  have hle := bucketOf_le boundaries.values x
  rw [h.length]
  omega

/-- A measurement is counted once in the buckets and once in all. -/
theorem record (h : d.Balanced boundaries) (v : T) : (d.record boundaries v).Balanced boundaries where
  length := (List.length_modify ..).trans h.length
  sum := by
    refine (sum_modify_add_one (h.bucketOf_lt (toBinary64 v))).trans ?_
    rw [h.sum]
    rfl

/-- The buckets of two distributions are added, as their counts are. -/
theorem merge (hp : previous.Balanced boundaries) (hc : current.Balanced boundaries) :
    (previous.merge current).Balanced boundaries where
  length := by simp [Distribution.merge, hp.length, hc.length]
  sum := by
    have hlength := hp.length.trans hc.length.symm
    refine (List.sum_add_sum_eq_sum_zipWith_of_length_eq _ _ hlength).symm.trans ?_
    rw [hp.sum, hc.sum]
    rfl

/-- A histogram within another can be taken away from it. -/
theorem diff (hp : previous.Balanced boundaries) (hc : current.Balanced boundaries)
    (hwithin : previous.Within current) : (previous.diff current).Balanced boundaries where
  length := by simp [Distribution.diff, hp.length, hc.length]
  sum := by
    have hle : List.Forall₂ (· ≤ ·) previous.buckets current.buckets := by
      exact List.forall₂_iff_zip.2 ⟨hp.length.trans hc.length.symm, hwithin.buckets _⟩
    refine (sum_zipWith_countMinus hle).trans ?_
    rw [hp.sum, hc.sum]
    exact (if_pos hwithin.count).symm

end Balanced

/-- Balance is kept by whoever only records, drains and joins. -/
theorem keeps_balanced [Quantity T] (boundaries : Boundaries) (recordsExtremes : Bool) :
    (Kind.histogram boundaries recordsExtremes).Keeps
      (Distribution.Balanced (T := T) boundaries) where
  fresh := .fresh boundaries
  record v _ h := h.record v
  merge hp hc := hp.merge hc

end Distribution

/-! ## The bucket of a measurement -/

/-- A measurement that is a number goes into the one bucket that it lies in, and changes no other. -/
theorem Distribution.Balanced.buckets_record {T : Type} [Quantity T] [Numeric T]
    {boundaries : Boundaries} {d : Distribution T} (h : d.Balanced boundaries) {v : T}
    (hv : isNaN v = false) :
    ∃ i < d.buckets.length, (∀ j, InBucket boundaries.values (toBinary64 v) j ↔ j = i) ∧
      ∀ j, (d.record boundaries v).buckets[j]? =
        d.buckets[j]?.map fun n => if j = i then n + 1 else n := by
  refine ⟨_, h.bucketOf_lt (toBinary64 v), fun j => ?_, fun j => ?_⟩
  · exact boundaries.inBucket_iff (Numeric.isNaN_toBinary64 hv)
  · rw [Distribution.record, List.getElem?_modify]
    by_cases hj : j = bucketOf boundaries.values (toBinary64 v)
    · simp [hj]
    · simp [hj, Ne.symm hj]

/-! ## Accumulations -/

/-- What histograms of a kind can come to: what the drain of a handle finds, two of them joined, and
the difference of two if the earlier one lies within the later one. -/
inductive HistogramArises {T : Type} [Quantity T] (boundaries : Boundaries) (recordsExtremes : Bool)
    (sampling : SamplingPlan T) :
    Accumulation T (.histogram boundaries recordsExtremes) → Prop
  | drained {h : Handle T (.histogram boundaries recordsExtremes)} {point : AttributeSet}
      {a : Accumulation T (.histogram boundaries recordsExtremes)} :
      h.Reached sampling → (h.drain point).1 = some a →
        HistogramArises boundaries recordsExtremes sampling a
  | merged {p c : Accumulation T (.histogram boundaries recordsExtremes)} :
      HistogramArises boundaries recordsExtremes sampling p →
      HistogramArises boundaries recordsExtremes sampling c →
        HistogramArises boundaries recordsExtremes sampling (p.merge c)
  | differed {p c : Accumulation T (.histogram boundaries recordsExtremes)} :
      HistogramArises boundaries recordsExtremes sampling p →
      HistogramArises boundaries recordsExtremes sampling c →
      Distribution.Within p.tally c.tally →
        HistogramArises boundaries recordsExtremes sampling (p.diff c)

/-- However a histogram arises, it is balanced, by induction on how it does. -/
theorem HistogramArises.balanced {T : Type} [Quantity T] {boundaries : Boundaries}
    {recordsExtremes : Bool} {sampling : SamplingPlan T}
    {a : Accumulation T (.histogram boundaries recordsExtremes)}
    (h : HistogramArises boundaries recordsExtremes sampling a) :
    Distribution.Balanced boundaries a.tally := by
  have hkeeps := Distribution.keeps_balanced (T := T) boundaries recordsExtremes
  induction h with
  | drained hh ha => exact Kind.Keeps.of_drain (hkeeps.reached hh) ha
  | merged _ _ hp hc => exact hp.merge hc
  | differed _ _ hwithin hp hc => exact hp.diff hc hwithin

end Metering
