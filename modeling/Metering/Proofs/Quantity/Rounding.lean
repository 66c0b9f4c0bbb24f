import Metering.Proofs.Boundaries
import Metering.Proofs.Tally.Summary

/-!
# Rounding keeps the order

A whole number becomes the nearest floating-point number. Of two numbers, the greater one does not
become the lesser (`Binary64.rank_ofUnits_le`): within one power of two, quotients by the same step
are rounded, and a power of two is never rounded down from. So converted quantities are ordered as the
quantities are (`Rounded`), and fall into buckets in the same order. -/

namespace Metering

namespace Binary64

/-! ## Magnitudes -/

/-- The quotient nearest to `n / step`, ties to the even one. -/
def roundQuotient (n step : Nat) : Nat :=
  if step < 2 * (n % step) ∨ 2 * (n % step) = step ∧ n / step % 2 = 1 then n / step + 1
  else n / step

/-- Rounding by its parts: the exponent of the last digit that is kept, and the quotient. -/
theorem roundUnits_eq (n : Nat) :
    roundUnits n = min infiniteMagnitude
      ((n.log2 - 52) * exponentPlace + roundQuotient n (1 <<< (n.log2 - 52))) := rfl

/-- Rounding goes down or up by less than one step. -/
theorem roundQuotient_bounds (n step : Nat) :
    n / step ≤ roundQuotient n step ∧ roundQuotient n step ≤ n / step + 1 := by
  unfold roundQuotient
  split <;> omega

/-- Rounding by one step keeps the order. -/
theorem roundQuotient_le {m n : Nat} (h : m ≤ n) (step : Nat) :
    roundQuotient m step ≤ roundQuotient n step := by
  have hdiv : m / step ≤ n / step := Nat.div_le_div_right h
  rcases Nat.lt_or_eq_of_le hdiv with hlt | heq
  · have hm := (roundQuotient_bounds m step).2
    have hn := (roundQuotient_bounds n step).1
    omega
  · -- of equal quotients, the one with the greater remainder is rounded up if the other is
    have hmod : m % step ≤ n % step := by
      have hm := Nat.div_add_mod m step
      have hn := Nat.div_add_mod n step
      rw [heq] at hm
      omega
    unfold roundQuotient
    rw [heq]
    split <;> split <;> omega

/-- A step cuts off all but 53 digits. -/
theorem div_step_lt (n : Nat) : n / 1 <<< (n.log2 - 52) < 2 ^ 53 := by
  rw [Nat.one_shiftLeft, Nat.div_lt_iff_lt_mul (Nat.two_pow_pos _), ← Nat.pow_add]
  exact (Nat.lt_log2_self (n := n)).trans_le (Nat.pow_le_pow_right (by decide) (by omega))

/-- If it cuts off any, 53 digits are left. -/
theorem le_div_step {n : Nat} (h : 52 < n.log2) : 2 ^ 52 ≤ n / 1 <<< (n.log2 - 52) := by
  have hn : n ≠ 0 := by
    rintro rfl
    cases h
  rw [Nat.one_shiftLeft, Nat.le_div_iff_mul_le (Nat.two_pow_pos _), ← Nat.pow_add]
  exact (Nat.pow_le_pow_right (by decide) (by omega)).trans (Nat.log2_self_le hn)

/-- More units have no fewer binary digits. -/
theorem log2_le {m n : Nat} (h : m ≤ n) : m.log2 ≤ n.log2 := by
  by_cases hm : m = 0
  · rw [hm, Nat.log2_zero]
    exact Nat.zero_le _
  · exact (Nat.le_log2 (by omega)).2 ((Nat.log2_self_le hm).trans h)

/-- Rounding keeps the order of magnitudes, also where the step changes. -/
theorem roundUnits_le {m n : Nat} (h : m ≤ n) : roundUnits m ≤ roundUnits n := by
  have hlog := log2_le h
  have hrounded : (m.log2 - 52) * exponentPlace + roundQuotient m (1 <<< (m.log2 - 52)) ≤
      (n.log2 - 52) * exponentPlace + roundQuotient n (1 <<< (n.log2 - 52)) := by
    by_cases hshift : m.log2 - 52 = n.log2 - 52
    · rw [hshift]
      exact Nat.add_le_add_left (roundQuotient_le h _) _
    · -- `n` has a greater exponent, and all the fraction of `m` and a carry stay below its place
      have hm := (roundQuotient_bounds m (1 <<< (m.log2 - 52))).2
      have hmlt := div_step_lt m
      have hn := (roundQuotient_bounds n (1 <<< (n.log2 - 52))).1
      have hnle := le_div_step (n := n) (by omega)
      have hplace : exponentPlace = 2 ^ 52 := rfl
      have hexponent : (m.log2 - 52 + 1) * exponentPlace ≤ (n.log2 - 52) * exponentPlace :=
        Nat.mul_le_mul_right _ (by omega)
      rw [Nat.add_mul, Nat.one_mul] at hexponent
      omega
  rw [roundUnits_eq, roundUnits_eq]
  exact le_min (min_le_left _ _) ((min_le_right _ _).trans hrounded)

/-! ## Signed numbers -/

/-- The sign can be read off an assembled word. -/
theorem signBit_ofMagnitude (negative : Bool) {m : Nat} (hm : m < signPlace) :
    (ofMagnitude negative m).signBit = negative := by
  rw [signBit, toNat_bits_ofMagnitude negative hm]
  cases negative with
  | true => exact decide_eq_true (Nat.le_add_right signPlace m)
  | false => exact decide_eq_false (Nat.not_le.2 hm)

/-- The rank of an assembled word is the magnitude with the sign. -/
theorem rank_ofMagnitude (negative : Bool) {m : Nat} (hm : m < signPlace) :
    (ofMagnitude negative m).rank = if negative then -(m : Int) else m := by
  rw [rank, magnitude_ofMagnitude negative hm, signBit_ofMagnitude negative hm]

/-- Rounding leaves the place of the sign free. -/
theorem roundUnits_lt_signPlace (n : Nat) : roundUnits n < signPlace := by
  have hround : roundUnits n ≤ infiniteMagnitude := Nat.min_le_left _ _
  have hinfinite : infiniteMagnitude < signPlace := by decide
  omega

/-- The rank of a rounded number is its rounded magnitude with the sign. -/
theorem rank_ofUnits (n : Int) :
    (ofUnits n).rank = if n < 0 then -(roundUnits n.natAbs : Int) else roundUnits n.natAbs := by
  rw [ofUnits, rank_ofMagnitude _ (roundUnits_lt_signPlace _)]
  by_cases hn : n < 0
  · rw [decide_eq_true hn, if_pos rfl, if_pos hn]
  · rw [decide_eq_false hn, if_neg Bool.false_ne_true, if_neg hn]

/-- **Rounding keeps the order.** -/
theorem rank_ofUnits_le {m n : Int} (h : m ≤ n) : (ofUnits m).rank ≤ (ofUnits n).rank := by
  rw [rank_ofUnits, rank_ofUnits]
  split <;> split
  · have hround := roundUnits_le (m := n.natAbs) (n := m.natAbs) (by omega)
    omega
  · omega
  · omega
  · have hround := roundUnits_le (m := m.natAbs) (n := n.natAbs) (by omega)
    omega

/-- The conversion of integers keeps the order. -/
theorem rank_ofInt_le {m n : Int} (h : m ≤ n) : (ofInt m).rank ≤ (ofInt n).rank :=
  rank_ofUnits_le (Int.mul_le_mul_of_nonneg_right h (Int.natCast_nonneg _))

end Binary64

namespace Quantity

/-- Quantities that keep their order as floating-point numbers. -/
class Rounded (T : Type) [Quantity T] [Ranked T] : Prop extends Numeric T where
  rank_toBinary64_le {v w : T} :
    Ranked.rank v ≤ Ranked.rank w → (toBinary64 v).rank ≤ (toBinary64 w).rank

instance : Rounded Int64 := ⟨Binary64.rank_ofInt_le⟩

instance : Rounded UInt64 := ⟨Binary64.rank_ofInt_le⟩

instance : Rounded Binary64 := ⟨id⟩

end Quantity

namespace Boundaries

/-- Numbers fall into buckets in their order. -/
theorem bucketOf_le_bucketOf (boundaries : Boundaries) {x y : Binary64} (hx : x.isNaN = false)
    (hy : y.isNaN = false) (h : x.rank ≤ y.rank) :
    bucketOf boundaries.values x ≤ bucketOf boundaries.values y := by
  rw [boundaries.bucketOf_eq_countP, boundaries.bucketOf_eq_countP]
  refine List.countP_mono_left fun b hb hbx => ?_
  rw [Binary64.numLe_iff (boundaries.isNaN hb) hx] at hbx
  rw [Binary64.numLe_iff (boundaries.isNaN hb) hy]
  omega

end Boundaries

end Metering
