import Metering.Proofs.Quantity.Rounding
import Mathlib.Algebra.Order.Field.Basic
import Mathlib.Algebra.Order.Field.Rat
import Mathlib.Algebra.Order.Ring.Cast
import Mathlib.Data.Rat.Cast.Order
import Mathlib.Order.Monotone.Basic
import Mathlib.Tactic.Linarith
import Mathlib.Tactic.Ring

/-!
# Conversion to the nearest number

The magnitudes of floating-point numbers stand for whole numbers of units, and each for more than the
one before it (`Binary64.strictMono_magnitudeUnits`). Of a number of units, rounding takes one of the two
magnitudes next to it, and the even one if it lies halfway between them. So no floating-point number is
nearer to it (`Binary64.roundsTo_ofUnits`), and in particular none lies in between: a boundary above an
integer is not below what the integer is rounded to, nor is one below it above that. -/

namespace Metering

namespace Binary64

/-! ## Units of magnitudes -/

/-- The next magnitude stands for one unit in the last place more. -/
theorem magnitudeUnits_succ (m : Nat) :
    magnitudeUnits (m + 1) = magnitudeUnits m + 2 ^ (m / exponentPlace - 1) := by
  have hplace : exponentPlace = 0x10000000000000 := rfl
  unfold magnitudeUnits
  rw [hplace]
  rcases Nat.lt_trichotomy (m + 1) 0x10000000000000 with hlt | heq | hgt
  · have hdiv : m / 0x10000000000000 = 0 := Nat.div_eq_of_lt (by omega)
    rw [if_pos hlt, if_pos (by omega), hdiv, Nat.zero_sub, Nat.pow_zero]
  · rw [if_neg (by omega), if_pos (by omega), heq]
    have hm : m = 0xFFFFFFFFFFFFF := by omega
    rw [hm]
    rfl
  · rw [if_neg (by omega), if_neg (by omega), Nat.shiftLeft_eq, Nat.shiftLeft_eq]
    by_cases hcarry : (m + 1) % 0x10000000000000 = 0
    · -- the fraction overflows, and the next exponent starts
      have hdiv : (m + 1) / 0x10000000000000 - 1 = m / 0x10000000000000 - 1 + 1 := by omega
      have hmod : m % 0x10000000000000 = 0xFFFFFFFFFFFFF := by omega
      rw [hcarry, hdiv, hmod, Nat.pow_succ]
      ring
    · have hdiv : (m + 1) / 0x10000000000000 = m / 0x10000000000000 := by omega
      have hmod : (m + 1) % 0x10000000000000 = m % 0x10000000000000 + 1 := by omega
      rw [hdiv, hmod]
      ring

/-- The greater of two magnitudes is worth more units. -/
theorem strictMono_magnitudeUnits : StrictMono magnitudeUnits :=
  strictMono_nat_of_lt_succ fun m => by
    rw [magnitudeUnits_succ]
    exact Nat.lt_add_of_pos_right (Nat.two_pow_pos _)

/-- A significand of 53 digits stands for itself, shifted by the exponent that it is added to. With
no exponent it may have fewer digits, and it may be the carry out of 53 digits. -/
theorem magnitudeUnits_mul_add {s q : Nat} (hq : q ≤ 2 ^ 53) (hs : s = 0 ∨ 2 ^ 52 ≤ q) :
    magnitudeUnits (s * exponentPlace + q) = q * 2 ^ s := by
  have hplace : exponentPlace = 0x10000000000000 := rfl
  unfold magnitudeUnits
  rw [hplace]
  split
  · have hzero : s = 0 := by omega
    rw [hzero]
    omega
  · rw [Nat.shiftLeft_eq]
    -- at the very end of its binade, the significand is the first one of the next binade
    rcases Nat.lt_or_eq_of_le hq with hlt | rfl
    · have hdiv : (s * 0x10000000000000 + q) / 0x10000000000000 = s + 1 := by omega
      have hmod : (s * 0x10000000000000 + q) % 0x10000000000000 = q - 0x10000000000000 := by omega
      have hle : 0x10000000000000 ≤ q := by omega
      rw [hdiv, hmod, Nat.add_sub_cancel, Nat.add_sub_cancel' hle]
    · have hdiv : (s * 0x10000000000000 + 2 ^ 53) / 0x10000000000000 = s + 1 + 1 := by omega
      have hmod : (s * 0x10000000000000 + 2 ^ 53) % 0x10000000000000 = 0 := by omega
      rw [hdiv, hmod, Nat.add_sub_cancel, Nat.pow_succ]
      ring

/-- A magnitude is even if its significand is. -/
theorem mul_exponentPlace_add_mod_two (s q : Nat) : (s * exponentPlace + q) % 2 = q % 2 := by
  rw [exponentPlace]
  omega

/-! ## Rounding to a magnitude -/

/-- A finite rounding is the quotient by the place of the last digit that is kept, in that place. -/
theorem roundUnits_of_lt {n : Nat} (hfinite : roundUnits n < infiniteMagnitude) :
    roundUnits n =
      (n.log2 - 52) * exponentPlace + roundQuotient n (1 <<< (n.log2 - 52)) := by
  rw [roundUnits_eq] at hfinite ⊢
  omega

/-- The digits that are kept of a number of units make a magnitude, and so do those one step above. -/
theorem magnitudeUnits_div_step (n : Nat) :
    magnitudeUnits ((n.log2 - 52) * exponentPlace + n / 2 ^ (n.log2 - 52)) =
        n / 2 ^ (n.log2 - 52) * 2 ^ (n.log2 - 52) ∧
      magnitudeUnits ((n.log2 - 52) * exponentPlace + n / 2 ^ (n.log2 - 52) + 1) =
        (n / 2 ^ (n.log2 - 52) + 1) * 2 ^ (n.log2 - 52) := by
  have hlt := div_step_lt n
  have hdigits : n.log2 - 52 = 0 ∨ 2 ^ 52 ≤ n / 1 <<< (n.log2 - 52) := by
    rcases Nat.eq_zero_or_pos (n.log2 - 52) with hzero | hpos
    · exact .inl hzero
    · exact .inr (le_div_step (by omega))
  rw [Nat.one_shiftLeft] at hlt hdigits
  refine ⟨magnitudeUnits_mul_add (Nat.le_of_lt hlt) hdigits, ?_⟩
  rw [Nat.add_assoc]
  exact magnitudeUnits_mul_add (Nat.succ_le_of_lt hlt) (hdigits.imp_right Nat.le_succ_of_le)

/-- A number of units lies between two magnitudes next to each other. Rounding takes the one that is
nearer, or else the even one. -/
theorem exists_roundUnits_around {n : Nat} (hfinite : roundUnits n < infiniteMagnitude) :
    ∃ below, magnitudeUnits below ≤ n ∧ n < magnitudeUnits (below + 1) ∧
      (roundUnits n = below ∧
          (2 * n < magnitudeUnits below + magnitudeUnits (below + 1) ∨
            2 * n = magnitudeUnits below + magnitudeUnits (below + 1) ∧ below % 2 = 0) ∨
        roundUnits n = below + 1 ∧
          (magnitudeUnits below + magnitudeUnits (below + 1) < 2 * n ∨
            magnitudeUnits below + magnitudeUnits (below + 1) = 2 * n ∧
              (below + 1) % 2 = 0)) := by
  have hround := roundUnits_of_lt hfinite
  obtain ⟨hbelow, habove⟩ := magnitudeUnits_div_step n
  rw [Nat.one_shiftLeft] at hround
  generalize n.log2 - 52 = s at hround hbelow habove
  have hsplit := Nat.div_add_mod n (2 ^ s)
  have hrest := Nat.mod_lt n (Nat.two_pow_pos s)
  have hparity := mul_exponentPlace_add_mod_two s (n / 2 ^ s)
  rw [Nat.mul_comm] at hsplit
  rw [Nat.add_mul, Nat.one_mul] at habove
  -- the number below has the digits that are kept; where rounding goes up, it is the next one
  refine ⟨s * exponentPlace + n / 2 ^ s, by omega, by omega, ?_⟩
  unfold roundQuotient at hround
  split at hround
  · exact .inr ⟨by omega, by omega⟩
  · exact .inl ⟨by omega, by omega⟩

/-- No magnitude is nearer than the one that rounding takes. If another one is as near, then the one
taken is even. -/
theorem roundUnits_nearest {n : Nat} (hfinite : roundUnits n < infiniteMagnitude) (m : Nat) :
    ((magnitudeUnits (roundUnits n) : Int) - n).natAbs ≤ ((magnitudeUnits m : Int) - n).natAbs ∧
      (((magnitudeUnits m : Int) - n).natAbs =
          ((magnitudeUnits (roundUnits n) : Int) - n).natAbs →
        magnitudeUnits m ≠ magnitudeUnits (roundUnits n) → roundUnits n % 2 = 0) := by
  obtain ⟨below, hbelow, habove, hround⟩ := exists_roundUnits_around hfinite
  -- no number lies strictly between the two around `n`
  have hside : magnitudeUnits m ≤ magnitudeUnits below ∨
      magnitudeUnits (below + 1) ≤ magnitudeUnits m := by
    rcases Nat.lt_or_ge below m with hlt | hge
    · exact .inr (strictMono_magnitudeUnits.monotone hlt)
    · exact .inl (strictMono_magnitudeUnits.monotone hge)
  obtain ⟨hround, hnear⟩ | ⟨hround, hnear⟩ := hround
  · rw [hround]
    omega
  · rw [hround]
    omega

/-- What needs no more than 53 digits is not rounded. -/
theorem magnitudeUnits_roundUnits {n : Nat} (hfinite : roundUnits n < infiniteMagnitude)
    (hdvd : 2 ^ (n.log2 - 52) ∣ n) : magnitudeUnits (roundUnits n) = n := by
  have hquotient : roundQuotient n (2 ^ (n.log2 - 52)) = n / 2 ^ (n.log2 - 52) := by
    have hpos := Nat.two_pow_pos (n.log2 - 52)
    rw [roundQuotient, Nat.mod_eq_zero_of_dvd hdvd]
    exact if_neg (by omega)
  rw [roundUnits_of_lt hfinite, Nat.one_shiftLeft, hquotient, (magnitudeUnits_div_step n).1,
    Nat.div_mul_cancel hdvd]

/-! ## Signed numbers of units -/

/-- The magnitude is rounded without regard to the sign. -/
theorem magnitude_ofUnits (n : Int) : (ofUnits n).magnitude = roundUnits n.natAbs :=
  magnitude_ofMagnitude _ (roundUnits_lt_signPlace _)

/-- The units of a number are those of its magnitude, with its sign. -/
theorem units_ofUnits (n : Int) :
    (ofUnits n).units =
      if n < 0 then -(magnitudeUnits (roundUnits n.natAbs) : Int)
      else magnitudeUnits (roundUnits n.natAbs) := by
  rw [units, magnitude_ofUnits, ofUnits, signBit_ofMagnitude _ (roundUnits_lt_signPlace _)]
  by_cases hn : n < 0
  · rw [decide_eq_true hn, if_pos rfl, if_pos hn]
  · rw [decide_eq_false hn, if_neg Bool.false_ne_true, if_neg hn]

/-- A number that is finite was not rounded beyond all finite ones. -/
theorem roundUnits_lt_of_isFinite {n : Int} (hfinite : (ofUnits n).isFinite = true) :
    roundUnits n.natAbs < infiniteMagnitude := by
  rw [← magnitude_ofUnits]
  exact of_decide_eq_true hfinite

/-- A number of units that needs no more than 53 digits becomes itself. -/
theorem units_ofUnits_of_dvd {n : Int} (hfinite : (ofUnits n).isFinite = true)
    (hdvd : 2 ^ (n.natAbs.log2 - 52) ∣ n.natAbs) : (ofUnits n).units = n := by
  rw [units_ofUnits, magnitudeUnits_roundUnits (roundUnits_lt_of_isFinite hfinite) hdvd]
  split <;> omega

/-- No number is nearer than the one that a number of units is rounded to. If another one is as near,
then that one is even. -/
theorem ofUnits_nearest {n : Int} (hfinite : (ofUnits n).isFinite = true) (y : Binary64) :
    ((ofUnits n).units - n).natAbs ≤ (y.units - n).natAbs ∧
      ((y.units - n).natAbs = ((ofUnits n).units - n).natAbs → y.units ≠ (ofUnits n).units →
        (ofUnits n).magnitude % 2 = 0) := by
  have hlt := roundUnits_lt_of_isFinite hfinite
  have hzero := (roundUnits_nearest hlt 0).1
  rw [show magnitudeUnits 0 = 0 from rfl] at hzero
  have hmagnitude := roundUnits_nearest hlt y.magnitude
  -- a number of the other sign is as far away as its opposite, or further
  rw [units_ofUnits, magnitude_ofUnits, units]
  split <;> split <;> omega

/-- Numbers are ordered as the numbers of units that they stand for. -/
theorem rank_le_iff_units_le (x y : Binary64) : x.rank ≤ y.rank ↔ x.units ≤ y.units := by
  have hzero : magnitudeUnits 0 = 0 := rfl
  have hle (m m' : Nat) : magnitudeUnits m ≤ magnitudeUnits m' ↔ m ≤ m' :=
    strictMono_magnitudeUnits.le_iff_le
  have hxy := hle x.magnitude y.magnitude
  have hyx := hle y.magnitude x.magnitude
  have hx := hle x.magnitude 0
  have hy := hle y.magnitude 0
  unfold rank units
  split <;> split <;> omega

/-! ## Exact values -/

/-- The exact value of a finite number. -/
def toRat (x : Binary64) : ℚ := x.units / 2 ^ 1074

/-- Numbers are ordered as their exact values are. -/
theorem toRat_le_iff {x y : Binary64} (hx : x.isNaN = false) (hy : y.isNaN = false) :
    x.toRat ≤ y.toRat ↔ x.numLe y = true := by
  rw [numLe_iff hx hy, rank_le_iff_units_le, toRat, toRat, div_le_div_iff_of_pos_right (by positivity),
    Int.cast_le]

/-- How far a number is from a number of units. -/
theorem abs_toRat_sub (x : Binary64) (n : Int) :
    |x.toRat - n / 2 ^ 1074| = ((x.units - n).natAbs : ℚ) / 2 ^ 1074 := by
  rw [toRat, ← sub_div, abs_div, abs_of_pos (by positivity : (0 : ℚ) < 2 ^ 1074), ← Int.cast_sub,
    Nat.cast_natAbs, Int.cast_abs]

/-- A finite number is the one that an exact value is rounded to: no finite number is nearer, and if
another one is as near, then the number is even. -/
structure RoundsTo (q : ℚ) (x : Binary64) : Prop where
  finite : x.isFinite = true
  nearest : ∀ y : Binary64, y.isFinite = true → |x.toRat - q| ≤ |y.toRat - q|
  even_of_tie : ∀ y : Binary64, y.isFinite = true → |y.toRat - q| = |x.toRat - q| →
    y.toRat ≠ x.toRat → x.magnitude % 2 = 0

/-- **Conversion to the nearest number.** A number of units becomes the number that is nearest to it,
ties to the even one, unless it is too great. -/
theorem roundsTo_ofUnits {n : Int} (hfinite : (ofUnits n).isFinite = true) :
    (ofUnits n).RoundsTo (n / 2 ^ 1074) where
  finite := hfinite
  nearest y _ := by
    rw [abs_toRat_sub, abs_toRat_sub, div_le_div_iff_of_pos_right (by positivity), Nat.cast_le]
    exact (ofUnits_nearest hfinite y).1
  even_of_tie y _ htie hne := by
    rw [abs_toRat_sub, abs_toRat_sub, div_left_inj' (by positivity), Nat.cast_inj] at htie
    refine (ofUnits_nearest hfinite y).2 htie fun hunits => hne ?_
    rw [toRat, toRat, hunits]

namespace RoundsTo

variable {q : ℚ} {x y : Binary64}

/-- A number at or below a value is at or below what the value is rounded to. -/
theorem le_of_le (h : x.RoundsTo q) (hy : y.isFinite = true) (hle : y.toRat ≤ q) :
    y.toRat ≤ x.toRat := by
  by_contra hlt
  have hnear := h.nearest y hy
  rw [abs_of_nonpos (by linarith), abs_of_nonpos (by linarith)] at hnear
  linarith

/-- A number at or above a value is at or above what the value is rounded to. -/
theorem ge_of_ge (h : x.RoundsTo q) (hy : y.isFinite = true) (hle : q ≤ y.toRat) :
    x.toRat ≤ y.toRat := by
  by_contra hlt
  have hnear := h.nearest y hy
  rw [abs_of_nonneg (by linarith), abs_of_nonneg (by linarith)] at hnear
  linarith

end RoundsTo

/-! ## Integers -/

/-- What has no more than two thousand binary digits is rounded to a finite number. -/
theorem roundUnits_lt {n : Nat} (hn : n.log2 < 2000) : roundUnits n < infiniteMagnitude := by
  have hinfinite : infiniteMagnitude = 2047 * exponentPlace := rfl
  have hplace : exponentPlace = 2 ^ 52 := rfl
  have hlt := div_step_lt n
  have hround := (roundQuotient_bounds n (1 <<< (n.log2 - 52))).2
  rw [roundUnits_eq, hinfinite, hplace]
  omega

/-- A number of `d` digits has `d + k` of them with `k` zeros at its end. -/
theorem log2_mul_two_pow_lt {a d : Nat} (ha : a < 2 ^ d) (k : Nat) (hd : 0 < d + k) :
    (a * 2 ^ k).log2 < d + k := by
  by_cases hzero : a * 2 ^ k = 0
  · rw [hzero]
    exact hd
  · rw [Nat.log2_lt hzero, Nat.pow_add]
    exact Nat.mul_lt_mul_of_pos_right ha (Nat.two_pow_pos k)

/-- What has 53 digits, with zeros after them, has no others. -/
theorem two_pow_log2_dvd {a : Nat} (ha : a ≤ 2 ^ 53) (k : Nat) :
    2 ^ ((a * 2 ^ k).log2 - 52) ∣ a * 2 ^ k := by
  rcases Nat.lt_or_eq_of_le ha with hlt | rfl
  · have hlog := log2_mul_two_pow_lt hlt k (by omega)
    exact Dvd.dvd.mul_left (Nat.pow_dvd_pow 2 (by omega)) a
  · rw [← Nat.pow_add, Nat.log2_two_pow]
    exact Nat.pow_dvd_pow 2 (by omega)

/-- Zeros at the end do not touch the sign. -/
theorem natAbs_mul_two_pow (v : Int) (k : Nat) : (v * 2 ^ k).natAbs = v.natAbs * 2 ^ k := by
  rw [Int.natAbs_mul, Int.natAbs_pow]
  rfl

/-- A shift of one is a power of two, also as an integer. -/
theorem natCast_one_shiftLeft (k : Nat) : ((1 <<< k : Nat) : Int) = 2 ^ k := by
  rw [Nat.one_shiftLeft, Nat.cast_pow, Nat.cast_ofNat]

/-- An integer is converted by way of its units. -/
theorem ofInt_eq (v : Int) : ofInt v = ofUnits (v * 2 ^ 1074) := by
  rw [ofInt, natCast_one_shiftLeft]

variable {v : Int}

/-- Integers of 64 digits are converted to finite numbers. -/
theorem isFinite_ofInt (hv : v.natAbs < 2 ^ 64) : (ofInt v).isFinite = true := by
  have hlog := log2_mul_two_pow_lt hv 1074 (by omega)
  rw [← natAbs_mul_two_pow] at hlog
  rw [ofInt_eq, isFinite, magnitude_ofUnits]
  exact decide_eq_true (roundUnits_lt (hlog.trans (by decide)))

/-- An integer is converted to the number that is nearest to it, ties to the even one. -/
theorem roundsTo_ofInt (hv : v.natAbs < 2 ^ 64) : (ofInt v).RoundsTo v := by
  have hround := roundsTo_ofUnits (ofInt_eq v ▸ isFinite_ofInt hv)
  rw [Int.cast_mul, Int.cast_pow, Int.cast_ofNat, mul_div_cancel_right₀ _ (by positivity)] at hround
  rwa [ofInt_eq]

/-- Integers of up to 53 digits are converted exactly. -/
theorem toRat_ofInt (hv : v.natAbs ≤ 2 ^ 53) : (ofInt v).toRat = v := by
  have hfinite : (ofInt v).isFinite = true := isFinite_ofInt (hv.trans_lt (by decide))
  have hdvd := two_pow_log2_dvd hv 1074
  rw [← natAbs_mul_two_pow] at hdvd
  rw [ofInt_eq] at hfinite ⊢
  rw [toRat, units_ofUnits_of_dvd hfinite hdvd, Int.cast_mul, Int.cast_pow, Int.cast_ofNat,
    mul_div_cancel_right₀ _ (by positivity)]

end Binary64

end Metering
