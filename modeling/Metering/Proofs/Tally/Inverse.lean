import Metering.Proofs.Difference

/-!
# Merges and differences that undo each other

Sums and counts of a merge wrap. Those of a difference stop at zero, but for signed sums, which wrap
again. So a difference takes back a merge exactly if nothing has wrapped, and a merge takes back a
difference exactly if nothing has stopped, while signed sums come back in any case
(`Accumulation.merge_and_diff_are_inverse`). What holds of one count (`countMinus_add_iff`,
`add_countMinus_iff`) holds of counts one by one, and so of the tallies.
-/

namespace Metering

open Quantity

/-! ## Counts -/

/-- A difference takes a count back out of a sum exactly if the sum has not wrapped. -/
theorem countMinus_add_iff {x y : UInt64} :
    countMinus (x + y) x = y ↔ x.toNat + y.toNat < 2 ^ 64 := by
  refine ⟨fun h => ?_, countMinus_add⟩
  by_contra hwraps
  have hx := x.toNat_lt
  have hy := y.toNat_lt
  -- a sum that has wrapped lies below its first part, so the difference stops at zero
  have hbelow : ¬ x ≤ x + y := by
    rw [UInt64.le_iff_toNat_le, UInt64.toNat_add]
    omega
  rw [countMinus, if_neg hbelow] at h
  rw [← h] at hwraps
  exact hwraps hx

/-- Adding a difference gives the greater count back exactly if the difference has not stopped. -/
theorem add_countMinus_iff {x y : UInt64} : x + countMinus y x = y ↔ x ≤ y := by
  by_cases h : x ≤ y
  · rw [countMinus, if_pos h, UInt64.add_comm, UInt64.sub_add_cancel]
    exact iff_of_true rfl h
  · rw [countMinus, if_neg h, UInt64.add_zero]
    exact iff_of_false (fun heq => h (heq ▸ UInt64.le_refl x)) h

/-! ## Tallies -/

namespace Kind

variable {T : Type} [Quantity T] {k : Kind}

/-- Two tallies have the same sum, the same count and the same bucket counts, as far as their kind has
them. -/
structure SameAmounts (k : Kind) (s t : k.Tally T) : Prop where
  sum : k.sumOf s = k.sumOf t
  counts : k.countsOf s = k.countsOf t

/-- No count of two tallies wraps when they are merged. -/
def CountsFit (k : Kind) (s t : k.Tally T) : Prop :=
  List.Forall₂ (fun m n => m.toNat + n.toNat < 2 ^ 64) (k.countsOf s) (k.countsOf t)

/-- No count of the first tally is above that of the second. -/
def CountsWithin (k : Kind) (s t : k.Tally T) : Prop :=
  List.Forall₂ (· ≤ ·) (k.countsOf s) (k.countsOf t)

theorem sumOf_merge (hk : k ≠ .lastValue) (p c : k.Tally T) :
    k.sumOf (k.merge p c) = add (k.sumOf p) (k.sumOf c) := by
  cases k with
  | lastValue => exact absurd rfl hk
  | sum monotonic => rfl
  | minMaxSumCount => rfl
  | histogram boundaries recordsExtremes => rfl

theorem sumOf_diff (hk : k ≠ .lastValue) (p c : k.Tally T) :
    k.sumOf (k.diff p c) = minus (k.sumOf c) (k.sumOf p) := by
  cases k with
  | lastValue => exact absurd rfl hk
  | sum monotonic => rfl
  | minMaxSumCount => rfl
  | histogram boundaries recordsExtremes => rfl

variable {p c : k.Tally T}

/-- The merge after a difference has the counts that the difference was taken of exactly if none has
stopped. -/
theorem countsOf_merge_diff_iff (hlength : (k.countsOf p).length = (k.countsOf c).length) :
    k.countsOf (k.merge p (k.diff p c)) = k.countsOf c ↔ k.CountsWithin p c := by
  rw [countsOf_merge, countsOf_diff, List.zipWith_zipWith_right, List.zipWith3_same_left,
    zipWith_eq_right_iff hlength]
  simp only [add_countMinus_iff, CountsWithin]

/-- A difference takes back a merge exactly if it does so for the sum, and no count has wrapped. -/
theorem sameAmounts_diff_merge_iff (hk : k ≠ .lastValue)
    (hlength : (k.countsOf p).length = (k.countsOf c).length) :
    k.SameAmounts (k.diff p (k.merge p c)) c ↔
      minus (add (k.sumOf p) (k.sumOf c)) (k.sumOf p) = k.sumOf c ∧ k.CountsFit p c := by
  have hcounts : k.countsOf (k.diff p (k.merge p c)) = k.countsOf c ↔ k.CountsFit p c := by
    simp only [countsOf_diff_merge_iff hlength, countMinus_add_iff, CountsFit]
  rw [← hcounts, ← sumOf_merge hk, ← sumOf_diff hk]
  exact ⟨fun h => ⟨h.sum, h.counts⟩, fun h => ⟨h.1, h.2⟩⟩

/-- A merge takes back a difference exactly if it does so for the sum, and no count has stopped. -/
theorem sameAmounts_merge_diff_iff (hk : k ≠ .lastValue)
    (hlength : (k.countsOf p).length = (k.countsOf c).length) :
    k.SameAmounts (k.merge p (k.diff p c)) c ↔
      add (k.sumOf p) (minus (k.sumOf c) (k.sumOf p)) = k.sumOf c ∧ k.CountsWithin p c := by
  rw [← countsOf_merge_diff_iff hlength, ← sumOf_diff hk, ← sumOf_merge hk]
  exact ⟨fun h => ⟨h.sum, h.counts⟩, fun h => ⟨h.1, h.2⟩⟩

end Kind

/-! ## Accumulations -/

namespace Accumulation

/-- **Merge and difference as inverses.** The difference of a merge from its earlier part has the sum,
the count and the bucket counts of the later part exactly if no count wraps in the merge and, of
unsigned words, neither does the sum. Merging a difference into its earlier part gives the sum, the
count and the bucket counts of the later part exactly if none of the earlier part is above the one it is
taken from. Sums of signed words are under no condition. -/
theorem merge_and_diff_are_inverse {k : Kind} (hk : k ≠ .lastValue) :
    (∀ p c : Accumulation Int64 k,
      (k.countsOf p.tally).length = (k.countsOf c.tally).length →
        (k.SameAmounts (p.diff (p.merge c)).tally c.tally ↔ k.CountsFit p.tally c.tally) ∧
        (k.SameAmounts (p.merge (p.diff c)).tally c.tally ↔ k.CountsWithin p.tally c.tally)) ∧
    ∀ p c : Accumulation UInt64 k,
      (k.countsOf p.tally).length = (k.countsOf c.tally).length →
        (k.SameAmounts (p.diff (p.merge c)).tally c.tally ↔
          (k.sumOf p.tally).toNat + (k.sumOf c.tally).toNat < 2 ^ 64 ∧
            k.CountsFit p.tally c.tally) ∧
        (k.SameAmounts (p.merge (p.diff c)).tally c.tally ↔
          k.sumOf p.tally ≤ k.sumOf c.tally ∧ k.CountsWithin p.tally c.tally) := by
  refine ⟨fun p c hlength => ⟨?_, ?_⟩, fun p c hlength => ⟨?_, ?_⟩⟩
  · refine (Kind.sameAmounts_diff_merge_iff hk hlength).trans (and_iff_right ?_)
    exact Word.minus_add (T := Int64) trivial
  · refine (Kind.sameAmounts_merge_diff_iff hk hlength).trans (and_iff_right ?_)
    show k.sumOf p.tally + (k.sumOf c.tally - k.sumOf p.tally) = k.sumOf c.tally
    rw [Int64.add_comm, Int64.sub_add_cancel]
  · exact (Kind.sameAmounts_diff_merge_iff hk hlength).trans
      (and_congr_left' countMinus_add_iff)
  · exact (Kind.sameAmounts_merge_diff_iff hk hlength).trans
      (and_congr_left' add_countMinus_iff)

/-- Histograms over what is below zero and what is not. -/
def bySign : Kind := .histogram ⟨[.zero], by decide⟩ true

/-- A histogram by sign with a sum and counts. -/
def ofAmounts {T : Type} [Quantity T] (sum : T) (count below rest : UInt64) :
    Accumulation T bySign where
  tally := ({ Spread.fresh with sum, count, buckets := [below, rest] } : Distribution T)

/-- Counts that just do not wrap come back, and so does a signed sum that wraps, while an unsigned sum
that wraps does not. Differences are taken back unless they stop at zero. -/
theorem merge_and_diff_are_inverse_at_limits :
    let full := 0xFFFFFFFFFFFFFFFD
    let p := ofAmounts Int64.maxValue full (full - 1) 1
    let c := ofAmounts 1 2 2 0
    let p' := ofAmounts (0xFFFFFFFFFFFFFFFF : UInt64) full (full - 1) 1
    let c' := ofAmounts 1 2 2 0
    bySign ≠ .lastValue ∧
    (bySign.countsOf p.tally).length = (bySign.countsOf c.tally).length ∧
    (bySign.countsOf p'.tally).length = (bySign.countsOf c'.tally).length ∧
    bySign.SameAmounts (p.diff (p.merge c)).tally c.tally ∧
    ¬ bySign.SameAmounts (p.merge (p.diff c)).tally c.tally ∧
    ¬ bySign.SameAmounts (p'.diff (p'.merge c')).tally c'.tally ∧
    bySign.SameAmounts (c'.merge (c'.diff c')).tally c'.tally := by
  intro full p c p' c'
  have hkind : bySign ≠ .lastValue := nofun
  obtain ⟨hsigned, hunsigned⟩ := merge_and_diff_are_inverse hkind
  have hfit : bySign.CountsFit p.tally c.tally :=
    .cons (by decide) (.cons (by decide) (.cons (by decide) .nil))
  have hwithin : bySign.CountsWithin c'.tally c'.tally :=
    List.forall₂_same.2 fun _ _ => UInt64.le_refl _
  refine ⟨hkind, rfl, rfl, (hsigned p c rfl).1.2 hfit, fun h => ?_, fun h => ?_, ?_⟩
  · have hcount := (List.forall₂_cons.1 ((hsigned p c rfl).2.1 h)).1
    exact absurd hcount (by decide)
  · exact absurd ((hunsigned p' c' rfl).1.1 h).1 (by decide)
  · exact (hunsigned c' c' rfl).2.2 ⟨UInt64.le_refl _, hwithin⟩

end Accumulation

end Metering
