import Metering.Proofs.Boundaries
import Metering.Proofs.Quantity.Extremes
import Metering.Proofs.Tally

/-!
# What a tally says

A tally summarises the recordings that it took in (`Kind.Summarises`): it has their number and their
sum, the least and the greatest of them, how many fell into each bucket, or the last one. None of
this is said by folding, so it tells what the numbers mean and not how they come about. NaNs are
numbers of no size: they are counted, but they are neither least nor greatest, and they lie above no
boundary. -/

namespace Metering

open Quantity

/-! ## Buckets -/

/-- A test that holds of a list up to some index, and from there on fails, holds as often as the
index says. -/
theorem countP_eq_of_split {α : Type} {p : α → Bool} {l : List α} {i : Nat} (hi : i ≤ l.length)
    (hbelow : ∀ j a, j < i → l[j]? = some a → p a = true)
    (habove : ∀ j a, i ≤ j → l[j]? = some a → p a = false) : l.countP p = i := by
  -- all of the first `i` are counted, and none of the others
  have htake : (l.take i).countP p = (l.take i).length := by
    refine List.countP_eq_length.2 fun a ha => ?_
    obtain ⟨j, hj⟩ := List.mem_iff_getElem?.1 ha
    rw [List.getElem?_take] at hj
    split at hj
    · exact hbelow j a ‹_› hj
    · cases hj
  have hdrop : (l.drop i).countP p = 0 := by
    refine List.countP_eq_zero.2 fun a ha => ?_
    obtain ⟨j, hj⟩ := List.mem_iff_getElem?.1 ha
    rw [List.getElem?_drop] at hj
    rw [habove (i + j) a (Nat.le_add_right i j) hj]
    exact Bool.false_ne_true
  have hsplit : (l.take i ++ l.drop i).countP p = min i l.length + 0 := by
    rw [List.countP_append, htake, hdrop, List.length_take]
  rw [List.take_append_drop] at hsplit
  omega

/-- A test that never holds begins to fail at the first index. -/
theorem bisect_of_never {p : Nat → Bool} (hp : ∀ i, p i = false) (first size : Nat) :
    bisect p first size = first := by
  fun_induction bisect p first size with
  | case1 first size _ hfirst =>
    rw [hp] at hfirst
    cases hfirst
  | case2 => rfl
  | case3 first size _ half ih =>
    rw [hp, dif_neg Bool.false_ne_true] at ih
    rw [hp, if_neg Bool.false_ne_true]
    exact ih

/-- The bucket of a number, or NaN, is how many boundaries lie at or below it. -/
theorem Boundaries.bucketOf_eq_countP (boundaries : Boundaries) (x : Binary64) :
    bucketOf boundaries.values x = boundaries.values.countP (·.numLe x) := by
  cases hx : x.isNaN with
  | false =>
    have hbucket := boundaries.inBucket_bucketOf hx
    have hle := hbucket.index_le
    refine (countP_eq_of_split hle (fun j b hj hb => ?_) fun j b hj hb => ?_).symm
    · -- the boundary before the bucket is the last one at or below the number
      have hlast : boundaries.values[bucketOf boundaries.values x - 1]? =
          some boundaries.values[bucketOf boundaries.values x - 1] :=
        List.getElem?_eq_getElem (by omega)
      have hlow := hbucket.lower _ _ (by omega) hlast
      have hprefix :=
        boundaries.isBelow_of_le hx (show j ≤ bucketOf boundaries.values x - 1 by omega)
        (by rw [hlast]; exact hlow)
      rwa [hb] at hprefix
    · by_contra hle
      have hprefix := boundaries.isBelow_of_le hx hj (by rw [hb]; exact Bool.not_eq_false _ ▸ hle)
      obtain ⟨a, ha, hax⟩ := (Option.any_eq_true _ _).1 hprefix
      have hnan := boundaries.isNaN (List.mem_of_getElem? ha)
      have hupper := hbucket.upper a ha
      rw [Binary64.numLe_iff hnan hx] at hax
      rw [Binary64.numLt_iff hx hnan] at hupper
      omega
  | true =>
    have hnever (b : Binary64) : b.numLe x = false := by simp [Binary64.numLe, hx]
    have hnone : boundaries.values.countP (·.numLe x) = 0 :=
      List.countP_eq_zero.2 fun b _ => by simp [hnever]
    have hbisect := bisect_of_never
      (p := fun i => (boundaries.values[i]?).any fun b => b.numLe x)
      (fun i => by simp [hnever]) 0 boundaries.values.length
    rw [hnone, bucketOf, hbisect, ite_self]

variable {T : Type} [Quantity T]

/-- How many values a bucket counts are those that fell into it, and what it had counted before. -/
theorem Distribution.getElem?_countAll (boundaries : Boundaries) (buckets : List UInt64)
    (rs : List (Recording T)) (i : Nat) :
    (countAll boundaries buckets rs)[i]? = buckets[i]?.map
      (· + .ofNat (rs.countP fun r => bucketOf boundaries.values (toBinary64 r.value) == i)) := by
  induction rs generalizing buckets with
  | nil => simp [countAll]
  | cons r rest ih =>
    refine (ih _).trans ?_
    rw [List.getElem?_modify, List.countP_cons]
    by_cases hi : bucketOf boundaries.values (toBinary64 r.value) = i
    · have hcount (a n : UInt64) : a + 1 + n = a + (n + 1) := by
        rw [UInt64.add_assoc, UInt64.add_comm 1]
      simp [hi, Function.comp_def, hcount]
    · simp [hi]

/-- The bucket of an index counts the recordings that fell into it. -/
theorem Distribution.getElem?_buckets (boundaries : Boundaries) (rs : List (Recording T)) {i : Nat}
    (hi : i ≤ boundaries.values.length) :
    (rs.foldl (fun d r => d.record boundaries r.value)
        (Distribution.fresh boundaries)).buckets[i]? =
      some (.ofNat (rs.countP fun r => bucketOf boundaries.values (toBinary64 r.value) == i)) := by
  have hzero : (Distribution.fresh (T := T) boundaries).buckets[i]? = some 0 := by
    rw [Distribution.fresh, List.getElem?_replicate, if_pos (Nat.lt_succ_of_le hi)]
  rw [foldl_record, getElem?_countAll, hzero, Option.map_some, UInt64.zero_add]

/-- There is one bucket more than there are boundaries. -/
theorem Distribution.length_buckets (boundaries : Boundaries) (rs : List (Recording T)) :
    (rs.foldl (fun d r => d.record boundaries r.value)
        (Distribution.fresh boundaries)).buckets.length = boundaries.values.length + 1 := by
  rw [foldl_record]
  exact (length_countAll ..).trans List.length_replicate

/-- A count is zero if nothing was counted, unless it has wrapped. -/
theorem ofNat_eq_zero_iff {n : Nat} (h : n < 2 ^ 64) : UInt64.ofNat n = 0 ↔ n = 0 := by
  rw [← UInt64.toNat_inj, UInt64.toNat_ofNat', Nat.mod_eq_of_lt h]
  rfl

/-- A bucket counts anything if something lies in it. -/
theorem Distribution.bucket_ne_zero_iff [Numeric T] (boundaries : Boundaries)
    {rs : List (Recording T)} (hlength : rs.length < 2 ^ 64)
    (hnumbers : ∀ r ∈ rs, isNaN r.value = false) (i : Nat) :
    (∃ n, (rs.foldl (fun d r => d.record boundaries r.value)
        (Distribution.fresh boundaries)).buckets[i]? = some n ∧ n ≠ 0) ↔
      ∃ r ∈ rs, InBucket boundaries.values (toBinary64 r.value) i := by
  let falls (r : Recording T) : Bool := bucketOf boundaries.values (toBinary64 r.value) == i
  have hfalls (r : Recording T) (hr : r ∈ rs) : falls r = true ↔
      InBucket boundaries.values (toBinary64 r.value) i := by
    rw [boundaries.inBucket_iff (Numeric.isNaN_toBinary64 (hnumbers r hr)), beq_iff_eq,
      eq_comm (a := i)]
  -- an index of a bucket, whose count is that of the measurements in it, or one beyond the last
  by_cases hi : i ≤ boundaries.values.length
  · have hle : rs.countP falls ≤ rs.length := List.countP_le_length
    have hne : UInt64.ofNat (rs.countP falls) ≠ 0 ↔ 0 < rs.countP falls := by
      rw [Ne, ofNat_eq_zero_iff (by omega), Nat.pos_iff_ne_zero]
    rw [getElem?_buckets boundaries rs hi]
    simp only [Option.some_inj, exists_eq_left']
    rw [hne, List.countP_pos_iff]
    exact exists_congr fun r => and_congr_right (hfalls r)
  · refine iff_of_false ?_ fun ⟨r, hr, hin⟩ => hi hin.index_le
    rintro ⟨n, hn, -⟩
    obtain ⟨hlt, -⟩ := List.getElem?_eq_some_iff.1 hn
    rw [length_buckets] at hlt
    omega

/-! ## Tallies -/

variable [Ranked T] [Bounded T] [Summed T]

/-- The count, sum, minimum and maximum of values. -/
structure Spread.Summarises (s : Spread T) (vs : List T) : Prop where
  count : s.count = .ofNat vs.length
  sum : s.sum = Summed.sum vs
  min : IsMinimum vs s.min
  max : IsMaximum vs s.max

/-- A spread, and for each bucket how many values have as many boundaries at or below them. -/
structure Distribution.Summarises (boundaries : Boundaries) (d : Distribution T) (vs : List T) :
    Prop extends d.toSpread.Summarises vs where
  length : d.buckets.length = boundaries.values.length + 1
  buckets : ∀ i ≤ boundaries.values.length, d.buckets[i]? =
    some (.ofNat (vs.countP fun v => boundaries.values.countP (·.numLe (toBinary64 v)) == i))

/-- Each number of a tally is what its name says it is of the recordings. -/
def Kind.Summarises : (k : Kind) → k.Tally T → List (Recording T) → Prop
  | .sum _, t, rs => t.value = Summed.sum (rs.map (·.value))
  | .lastValue, t, rs => ∃ r ∈ rs.getLast?, t = ⟨r.value, r.time⟩
  | .minMaxSumCount, t, rs => Spread.Summarises t (rs.map (·.value))
  | .histogram boundaries _, t, rs => Distribution.Summarises boundaries t (rs.map (·.value))

omit [Ranked T] [Bounded T] in
/-- The sum of recordings is that of their values. -/
theorem foldl_add_values (rs : List (Recording T)) :
    rs.foldl (fun a r => add a r.value) zero = Summed.sum (rs.map (·.value)) := by
  rw [← Summed.foldl_add, List.foldl_map]

/-- A spread is made of all its measurements. -/
theorem Spread.summarises (rs : List (Recording T)) :
    Spread.Summarises (rs.foldl (fun s r => s.record r.value) Spread.fresh) (rs.map (·.value)) := by
  rw [foldl_record]
  refine ⟨?_, foldl_add_values rs, isMinimum_foldl_lower _, isMaximum_foldl_higher _⟩
  simp [fresh]

/-- A distribution is made of all its measurements, bucket by bucket. -/
theorem Distribution.summarises (boundaries : Boundaries) (rs : List (Recording T)) :
    Distribution.Summarises boundaries
      (rs.foldl (fun d r => d.record boundaries r.value) (Distribution.fresh boundaries))
      (rs.map (·.value)) := by
  have hbuckets (i : Nat) (hi : i ≤ boundaries.values.length) := getElem?_buckets boundaries rs hi
  have hlength := length_buckets boundaries rs
  simp only [boundaries.bucketOf_eq_countP, foldl_record] at hbuckets
  rw [foldl_record] at hlength ⊢
  refine ⟨Spread.summarises rs, hlength, fun i hi => ?_⟩
  rw [hbuckets i hi, List.countP_map]
  rfl

/-- The tally of recordings summarises them. -/
theorem Kind.summarises_tallyOf (k : Kind) {rs : List (Recording T)} (hrs : rs ≠ []) :
    k.Summarises (k.tallyOf rs) rs := by
  cases k with
  | sum monotonic =>
    have hfold := Total.foldl_record Total.fresh rs
    exact (congrArg Total.value hfold).trans (foldl_add_values rs)
  | lastValue =>
    exact ⟨rs.getLast hrs, List.getLast?_eq_some_getLast hrs, Latest.foldl_record _ hrs⟩
  | minMaxSumCount => exact Spread.summarises rs
  | histogram boundaries recordsExtremes => exact Distribution.summarises boundaries rs

end Metering
