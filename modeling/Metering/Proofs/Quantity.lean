import Metering.Quantity
import Mathlib.Algebra.Group.Nat.Defs
import Mathlib.Data.List.Basic

/-!
# Order and sums of measured quantities

All three types of quantities are ordered as whole numbers are, NaNs left aside (`Ranked`). So the
running minimum and maximum of two stretches of measurements can be joined, whatever NaNs and signed
zeros occur. Only words can have their sums regrouped (`Modular`).
-/

namespace Metering

namespace Quantity

/-- Quantities that compare as their ranks do, apart from those that are no numbers. -/
class Ranked (T : Type) [Quantity T] where
  rank : T → Int
  numLt_eq (a b : T) : numLt a b = (!isNaN a && !isNaN b && decide (rank a < rank b))
  numLe_eq (a b : T) : numLe a b = (!isNaN a && !isNaN b && decide (rank a ≤ rank b))
  isNaN_least : isNaN (least : T) = false
  isNaN_greatest : isNaN (greatest : T) = false
  least_le {a : T} : isNaN a = false → rank (least : T) ≤ rank a
  le_greatest {a : T} : isNaN a = false → rank a ≤ rank (greatest : T)

/-- Quantities whose sums do not depend on how they are grouped. -/
class Modular (T : Type) [Quantity T] : Prop where
  add_assoc (a b c : T) : add (add a b) c = add a (add b c)
  add_comm (a b : T) : add a b = add b a
  zero_add (a : T) : add zero a = a

/-- Modular quantities whose differences undo sums, as long as the two parts fit together. -/
class Word (T : Type) [Quantity T] extends Modular T where
  /-- Whether the difference takes a sum of the two apart again. -/
  fits : T → T → Prop
  minus_add {a b : T} : fits a b → minus (add a b) a = b
  minus_self (a : T) : minus a a = zero

/-! ## The three types -/

instance : Ranked Int64 where
  rank := Int64.toInt
  numLt_eq a b := by simp [numLt, isNaN, Int64.lt_iff_toInt_lt]
  numLe_eq a b := by simp [numLe, isNaN, Int64.le_iff_toInt_le]
  isNaN_least := rfl
  isNaN_greatest := rfl
  least_le {a} _ := a.minValue_le_toInt
  le_greatest {a} _ := a.toInt_le

instance : Modular Int64 where
  add_assoc := Int64.add_assoc
  add_comm := Int64.add_comm
  zero_add := Int64.zero_add

instance : Ranked UInt64 where
  rank a := a.toNat
  numLt_eq a b := by simp [numLt, isNaN, UInt64.lt_iff_toNat_lt]
  numLe_eq a b := by simp [numLe, isNaN, UInt64.le_iff_toNat_le]
  isNaN_least := rfl
  isNaN_greatest := rfl
  least_le {a} _ := Int.natCast_nonneg a.toNat
  le_greatest {a} _ := Int.ofNat_le.2 (Nat.le_of_lt_succ a.toNat_lt)

instance : Modular UInt64 where
  add_assoc := UInt64.add_assoc
  add_comm := UInt64.add_comm
  zero_add := UInt64.zero_add

/-- Signed words wrap in both directions, so any two fit. -/
instance : Word Int64 where
  fits _ _ := True
  minus_add {a b} _ := by
    show a + b - a = b
    rw [Int64.add_comm, Int64.add_sub_cancel]
  minus_self := Int64.sub_self

/-- Unsigned words fit if their sum does not wrap. -/
instance : Word UInt64 where
  fits a b := a.toNat + b.toNat < 2 ^ 64
  minus_add {a b} h := by
    have hle : a ≤ a + b := by
      rw [UInt64.le_iff_toNat_le, UInt64.toNat_add, Nat.mod_eq_of_lt h]
      omega
    show (if a ≤ a + b then a + b - a else 0) = b
    rw [if_pos hle, UInt64.add_comm, UInt64.add_sub_cancel]
  minus_self a := by
    show (if a ≤ a then a - a else 0) = 0
    rw [if_pos (UInt64.le_refl a), UInt64.sub_self]

/-- A number that is not NaN lies between the infinities. -/
theorem rank_bounds {x : Binary64} (h : x.isNaN = false) :
    -(Binary64.infiniteMagnitude : Int) ≤ x.rank ∧ x.rank ≤ Binary64.infiniteMagnitude := by
  have hmag : x.magnitude ≤ Binary64.infiniteMagnitude := by
    simpa [Binary64.isNaN] using h
  unfold Binary64.rank
  split <;> omega

instance : Ranked Binary64 where
  rank := Binary64.rank
  numLt_eq _ _ := rfl
  numLe_eq _ _ := rfl
  isNaN_least := by decide
  isNaN_greatest := by decide
  least_le h := by
    have hrank : Binary64.rank least = -(Binary64.infiniteMagnitude : Int) := by decide
    rw [hrank]
    exact (rank_bounds h).1
  le_greatest h := by
    have hrank : Binary64.rank greatest = (Binary64.infiniteMagnitude : Int) := by decide
    rw [hrank]
    exact (rank_bounds h).2

/-! ## Running extremes -/

/-- Keep the running value unless the new one is strictly better by a rank. NaNs are never better,
and nothing is better than a NaN. -/
def keep {T : Type} (nan : T → Bool) (rank : T → Int) (running new : T) : T :=
  if !nan running && !nan new && decide (rank new < rank running) then new else running

section Keep

variable {T : Type} {nan : T → Bool} {rank : T → Int}

/-- What is kept is a number, if something was before. -/
theorem nan_keep {a : T} (ha : nan a = false) (v : T) : nan (keep nan rank a v) = false := by
  unfold keep
  split
  · rename_i hnew
    simp only [Bool.and_eq_true, Bool.not_eq_true'] at hnew
    exact hnew.1.2
  · exact ha

/-- The value of the lesser rank takes the place of the one that is kept. -/
theorem keep_of_lt {a v : T} (ha : nan a = false) (hv : nan v = false) (h : rank v < rank a) :
    keep nan rank a v = v := by
  simp [keep, ha, hv, h]

/-- Otherwise the one that is kept stays. -/
theorem keep_of_not_lt {a v : T} (h : ¬ rank v < rank a) : keep nan rank a v = a := by
  simp [keep, h]

/-- The better of three numbers, the first of equally good ones, does not depend on the grouping. -/
theorem keep_assoc {a b : T} (ha : nan a = false) (hb : nan b = false) (v : T) :
    keep nan rank (keep nan rank a b) v = keep nan rank a (keep nan rank b v) := by
  cases hv : nan v with
  | true => simp [keep, hv]
  | false =>
    by_cases hba : rank b < rank a
    · rw [keep_of_lt ha hb hba]
      by_cases hvb : rank v < rank b
      · rw [keep_of_lt hb hv hvb, keep_of_lt ha hv (Int.lt_trans hvb hba)]
      · rw [keep_of_not_lt hvb, keep_of_lt ha hb hba]
    · rw [keep_of_not_lt hba]
      by_cases hvb : rank v < rank b
      · rw [keep_of_lt hb hv hvb]
      · have hva : ¬ rank v < rank a := by omega
        rw [keep_of_not_lt hvb, keep_of_not_lt hva, keep_of_not_lt hba]

/-- The best of a stretch that goes on from `a` is the better of `a` and the best of the stretch on
its own, taken from the worst value. -/
theorem foldl_keep {worst : T} (hworst : nan worst = false)
    (hle : ∀ v, nan v = false → rank v ≤ rank worst) {a : T} (ha : nan a = false) (vs : List T) :
    vs.foldl (keep nan rank) a = keep nan rank a (vs.foldl (keep nan rank) worst) := by
  have hkeep : ∀ b, nan b = false → keep nan rank b worst = b := fun b hb =>
    keep_of_not_lt (by have := hle b hb; omega)
  induction vs generalizing a with
  | nil => exact (hkeep a ha).symm
  | cons v rest ih =>
    rw [List.foldl_cons, List.foldl_cons, ih (nan_keep ha v), ih (nan_keep hworst v),
      ← keep_assoc ha (nan_keep hworst v), ← keep_assoc ha hworst, hkeep a ha]

end Keep

variable {T : Type} [Quantity T] [Ranked T]

/-- The lower of two values is the one that is kept by rank. -/
theorem lower_eq_keep : (lower : T → T → T) = keep isNaN Ranked.rank := by
  funext a v
  simp only [lower, keep, Ranked.numLt_eq, Bool.and_comm (!isNaN v)]

/-- The higher of two values is the one that is kept by rank the other way round. -/
theorem higher_eq_keep : (higher : T → T → T) = keep isNaN fun v => -Ranked.rank v := by
  funext a v
  simp only [higher, keep, Ranked.numLt_eq, Int.neg_lt_neg_iff]

/-- The minimum of a stretch that goes on from a running one. -/
theorem foldl_lower {a : T} (ha : isNaN a = false) (vs : List T) :
    vs.foldl lower a = lower a (vs.foldl lower greatest) := by
  rw [lower_eq_keep]
  exact foldl_keep Ranked.isNaN_greatest (fun _ => Ranked.le_greatest) ha vs

/-- The maximum of a stretch that goes on from a running one. -/
theorem foldl_higher {a : T} (ha : isNaN a = false) (vs : List T) :
    vs.foldl higher a = higher a (vs.foldl higher least) := by
  rw [higher_eq_keep]
  exact foldl_keep Ranked.isNaN_least (fun _ hv => Int.neg_le_neg (Ranked.least_le hv)) ha vs

/-- A running minimum that starts from a number stays one. -/
theorem isNaN_foldl_lower {a : T} (ha : isNaN a = false) (vs : List T) :
    isNaN (vs.foldl lower a) = false := by
  rw [foldl_lower ha, lower_eq_keep]
  exact nan_keep ha _

/-- A running maximum that starts from a number stays one. -/
theorem isNaN_foldl_higher {a : T} (ha : isNaN a = false) (vs : List T) :
    isNaN (vs.foldl higher a) = false := by
  rw [foldl_higher ha, higher_eq_keep]
  exact nan_keep ha _

/-! ## Sums of words -/

/-- The sum of a stretch that goes on from a running one. -/
theorem foldl_add {T : Type} [Quantity T] [Modular T] (a : T) (vs : List T) :
    vs.foldl add a = add a (vs.foldl add zero) := by
  induction vs generalizing a with
  | nil => exact ((Modular.add_comm a zero).trans (Modular.zero_add a)).symm
  | cons v rest ih =>
    rw [List.foldl_cons, List.foldl_cons, ih, ih (add zero v), Modular.zero_add, Modular.add_assoc]

end Quantity

end Metering
