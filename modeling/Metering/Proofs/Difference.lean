import Metering.Proofs.Tally
import Mathlib.Data.List.Forall2
import Mathlib.Data.List.Zip

/-!
# Differences of tallies

Taking an earlier tally away from a later one undoes a merge, for the sum and for the counts of a
tally. Extremes and latest values cannot be taken apart, so they do not show here.
-/

namespace Metering

open Quantity

variable {T : Type} [Quantity T]

/-! ## Counts -/

/-- What was added to a count is what it grew by, if the sum is no more than a word. -/
theorem countMinus_add {x y : UInt64} (h : x.toNat + y.toNat < 2 ^ 64) :
    countMinus (x + y) x = y :=
  Word.minus_add (T := UInt64) h

/-- A count that did not change grew by nothing. -/
theorem countMinus_self (x : UInt64) : countMinus x x = 0 := Word.minus_self x

/-- Changing a list together with another one leaves it as it is exactly if each element is left. -/
theorem zipWith_eq_right_iff {α β : Type} {f : α → β → β} {xs : List α} {ys : List β}
    (hlength : xs.length = ys.length) :
    List.zipWith f xs ys = ys ↔ List.Forall₂ (fun x y => f x y = y) xs ys := by
  induction xs generalizing ys with
  | nil =>
    obtain rfl := List.eq_nil_of_length_eq_zero hlength.symm
    exact iff_of_true rfl .nil
  | cons x xs ih =>
    obtain ⟨y, ys, rfl⟩ := List.exists_cons_of_length_eq_add_one hlength.symm
    rw [List.zipWith_cons_cons, List.cons.injEq, ih (Nat.succ.inj hlength), List.forall₂_cons]

/-- The buckets of a distribution grew by nothing if they did not change. -/
theorem zipWith_countMinus_self (xs : List UInt64) :
    ∀ n ∈ List.zipWith (fun p c => countMinus c p) xs xs, n = 0 := by
  intro n hn
  rw [List.zipWith_self, List.mem_map] at hn
  obtain ⟨x, -, rfl⟩ := hn
  exact countMinus_self x

namespace Kind

/-! ## Sums and counts of a tally -/

/-- The sum in a tally, or the latest value for want of a sum. -/
def sumOf : (k : Kind) → k.Tally T → T
  | .sum _, t => t.value
  | .lastValue, t => t.value
  | .minMaxSumCount, t => t.sum
  | .histogram _ _, t => t.sum

/-- The counts in a tally: that of all measurements, and those of the buckets. -/
def countsOf : (k : Kind) → k.Tally T → List UInt64
  | .sum _, _ => []
  | .lastValue, _ => []
  | .minMaxSumCount, t => [t.count]
  | .histogram _ _, t => t.count :: t.buckets

/-- All tallies of recordings have equally many counts. -/
theorem length_countsOf_tallyOf (k : Kind) (rs : List (Recording T)) :
    (k.countsOf (k.tallyOf rs)).length = (k.countsOf (k.fresh (T := T))).length := by
  cases k with
  | sum monotonic => rfl
  | lastValue => rfl
  | minMaxSumCount => rfl
  | histogram boundaries recordsExtremes =>
    show (rs.foldl (fun (d : Distribution T) r => d.record boundaries r.value)
      (.fresh boundaries)).buckets.length + 1 = _
    rw [Distribution.foldl_record, Distribution.length_countAll]
    rfl

/-! ## Differences -/

/-- The counts of a difference are the differences of the counts. -/
theorem countsOf_diff (k : Kind) (p c : k.Tally T) :
    k.countsOf (k.diff p c) =
      List.zipWith (fun p c => countMinus c p) (k.countsOf p) (k.countsOf c) := by
  cases k <;> rfl

/-- Merging adds counts, bucket by bucket. -/
theorem countsOf_merge (k : Kind) (p c : k.Tally T) :
    k.countsOf (k.merge p c) = List.zipWith (· + ·) (k.countsOf p) (k.countsOf c) := by
  cases k with
  | lastValue => rfl
  | sum monotonic => rfl
  | minMaxSumCount => rfl
  | histogram boundaries recordsExtremes => rfl

/-- The difference after a merge has the counts that were merged in exactly if each of them comes back
out of its sum. -/
theorem countsOf_diff_merge_iff {k : Kind} {p c : k.Tally T}
    (hlength : (k.countsOf p).length = (k.countsOf c).length) :
    k.countsOf (k.diff p (k.merge p c)) = k.countsOf c ↔
      List.Forall₂ (fun m n => countMinus (m + n) m = n) (k.countsOf p) (k.countsOf c) := by
  rw [countsOf_diff, countsOf_merge, List.zipWith_zipWith_right, List.zipWith3_same_left,
    zipWith_eq_right_iff hlength]

/-- What came between two tallies has the sum and the counts of a third one, each as long as it fits
together with that of the earlier tally. -/
structure Bridges [Word T] (k : Kind) (previous current delta : k.Tally T) : Prop where
  sum : Word.fits (k.sumOf previous) (k.sumOf delta) →
    k.sumOf (k.diff previous current) = k.sumOf delta
  counts : (∀ n ∈ (k.countsOf previous).zip (k.countsOf delta), n.1.toNat + n.2.toNat < 2 ^ 64) →
    k.countsOf (k.diff previous current) = k.countsOf delta

/-- Nothing came between two tallies. -/
structure Unchanged (k : Kind) (previous current : k.Tally T) : Prop where
  sum : k.sumOf (k.diff previous current) = zero
  counts : ∀ n ∈ k.countsOf (k.diff previous current), n = 0

/-- What is merged into a tally comes between the two. -/
theorem bridges_merge [Word T] {k : Kind} (hk : k ≠ .lastValue) {p c : k.Tally T}
    (hlength : (k.countsOf p).length = (k.countsOf c).length) : k.Bridges p (k.merge p c) c where
  sum hfits := by
    cases k with
    | lastValue => exact absurd rfl hk
    | sum monotonic => exact Word.minus_add hfits
    | minMaxSumCount => exact Word.minus_add hfits
    | histogram boundaries recordsExtremes => exact Word.minus_add hfits
  counts hfit := by
    rw [countsOf_diff_merge_iff hlength]
    exact List.forall₂_iff_zip.2 ⟨hlength, fun hn => countMinus_add (hfit _ hn)⟩

/-- Nothing changes between a tally and itself. -/
theorem unchanged_self [Word T] {k : Kind} (hk : k ≠ .lastValue) (p : k.Tally T) :
    k.Unchanged p p where
  sum := by
    cases k with
    | lastValue => exact absurd rfl hk
    | sum monotonic => exact Word.minus_self _
    | minMaxSumCount => exact Word.minus_self _
    | histogram boundaries recordsExtremes => exact Word.minus_self _
  counts := by
    rw [countsOf_diff]
    exact zipWith_countMinus_self _

end Kind

end Metering
