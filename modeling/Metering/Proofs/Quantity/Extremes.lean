import Metering.Proofs.Attribute.Identity
import Metering.Proofs.Quantity
import Mathlib.Algebra.BigOperators.Group.List.Basic
import Mathlib.Algebra.GroupWithZero.Nat
import Mathlib.Algebra.Ring.Int.Defs

/-!
# Sums and extremes of many quantities

What the sum, the least and the greatest of many values are, said without folding: words are summed
as whole numbers modulo `2 ^ 64` (`Summed`), and the extremes are values that none of the others is
beyond, NaNs left aside (`Extreme`). Folding the running operations comes to the same. -/

namespace Metering

namespace Quantity

/-! ## Sums -/

/-- Quantities that many values of can be summed at once. -/
class Summed (T : Type) [Quantity T] where
  /-- The sum of values: of words, that of whole numbers, modulo `2 ^ 64`; of floating-point
  numbers, the sum in their order. -/
  sum : List T → T
  foldl_add (vs : List T) : vs.foldl add zero = sum vs

/-- A fold whose steps add in a monoid comes to a sum in the monoid. -/
theorem foldl_eq_sum {T M : Type} [AddMonoid M] {op : T → T → T} {ofM : M → T} {toM : T → M}
    (hop : ∀ n v, op (ofM n) v = ofM (n + toM v)) (vs : List T) (n : M) :
    vs.foldl op (ofM n) = ofM (n + (vs.map toM).sum) := by
  induction vs generalizing n with
  | nil => rw [List.foldl_nil, List.map_nil, List.sum_nil, add_zero]
  | cons v rest ih => rw [List.foldl_cons, hop, ih, List.map_cons, List.sum_cons, add_assoc]

instance : Summed Int64 where
  sum vs := .ofInt (vs.map Int64.toInt).sum
  foldl_add vs := by
    have hadd (n : Int) (v : Int64) : add (Int64.ofInt n) v = Int64.ofInt (n + v.toInt) := by
      rw [Int64.ofInt_add, Int64.ofInt_toInt]
      rfl
    have hfold := foldl_eq_sum hadd vs 0
    rwa [Int.zero_add] at hfold

instance : Summed UInt64 where
  sum vs := .ofNat (vs.map UInt64.toNat).sum
  foldl_add vs := by
    have hadd (n : Nat) (v : UInt64) : add (UInt64.ofNat n) v = UInt64.ofNat (n + v.toNat) := by
      rw [UInt64.ofNat_add, UInt64.ofNat_toNat]
      rfl
    have hfold := foldl_eq_sum hadd vs 0
    rwa [Nat.zero_add] at hfold

instance : Summed Binary64 where
  sum vs := vs.foldl add zero
  foldl_add _ := rfl

/-! ## Extremes -/

/-- Quantities that are all numbers, and that their ranks tell apart. -/
class Exact (T : Type) [Quantity T] [Ranked T] : Prop where
  isNumber (v : T) : isNaN v = false
  rank_inj {v w : T} : Ranked.rank v = Ranked.rank w → v = w

instance : Exact Int64 where
  isNumber _ := rfl
  rank_inj := Int64.toInt_inj.1

instance : Exact UInt64 where
  isNumber _ := rfl
  rank_inj h := UInt64.toNat_inj.1 (Int.ofNat_inj.1 h)

/-- Quantities of which no two are greatest, and no two least. -/
class Bounded (T : Type) [Quantity T] [Ranked T] : Prop where
  eq_greatest {v : T} : isNaN v = false → Ranked.rank (greatest : T) ≤ Ranked.rank v → v = greatest
  eq_least {v : T} : isNaN v = false → Ranked.rank v ≤ Ranked.rank (least : T) → v = least

instance {T : Type} [Quantity T] [Ranked T] [Exact T] : Bounded T where
  eq_greatest h hle := Exact.rank_inj (Int.le_antisymm (Ranked.le_greatest h) hle)
  eq_least h hle := Exact.rank_inj (Int.le_antisymm hle (Ranked.least_le h))

/-- Equal numbers other than the zeros are one and the same. -/
theorem eq_of_rank {x y : Binary64} (hx : isNaN x = false) (hy : isNaN y = false)
    (hrank : Ranked.rank x = Ranked.rank y) (hmagnitude : y.magnitude ≠ 0) : x = y := by
  have hequal : x.numEq y = true := by
    rw [Binary64.numEq, show x.isNaN = false from hx, show y.isNaN = false from hy]
    exact decide_eq_true hrank
  exact (Binary64.numEq_cases hequal).resolve_right fun hzeros => hmagnitude hzeros.2.1

instance : Bounded Binary64 where
  eq_greatest hv hle := eq_of_rank hv Ranked.isNaN_greatest
    (Int.le_antisymm (Ranked.le_greatest hv) hle) (by decide)
  eq_least hv hle := eq_of_rank hv Ranked.isNaN_least
    (Int.le_antisymm hle (Ranked.least_le hv)) (by decide)

section Keep

variable {T : Type} {nan : T → Bool} {rank : T → Int}

/-- What is kept is the value that was there first or one of those that came. -/
theorem foldl_keep_mem (a : T) (vs : List T) : vs.foldl (keep nan rank) a ∈ a :: vs := by
  induction vs generalizing a with
  | nil => exact List.mem_cons_self
  | cons v rest ih =>
    rcases List.mem_cons.1 (ih (keep nan rank a v)) with hfirst | hrest
    · rw [List.foldl_cons, hfirst, keep]
      split
      · exact List.mem_cons_of_mem a List.mem_cons_self
      · exact List.mem_cons_self
    · exact List.mem_cons_of_mem a (List.mem_cons_of_mem v hrest)

theorem nan_foldl_keep {a : T} (ha : nan a = false) (vs : List T) :
    nan (vs.foldl (keep nan rank) a) = false := by
  induction vs generalizing a with
  | nil => exact ha
  | cons v rest ih => exact ih (nan_keep ha v)

/-- No number among the values ranks before the one that is kept. -/
theorem rank_foldl_keep_le {a : T} (ha : nan a = false) {vs : List T} {v : T} (hv : v ∈ a :: vs)
    (hnan : nan v = false) : rank (vs.foldl (keep nan rank) a) ≤ rank v := by
  induction vs generalizing a v with
  | nil => rw [List.mem_singleton.1 hv]; exact Int.le_refl _
  | cons w rest ih =>
    -- one step keeps the lesser rank of the two, and a NaN changes nothing
    have hstep : rank (keep nan rank a w) ≤ rank a ∧
        (nan w = false → rank (keep nan rank a w) ≤ rank w) := by
      by_cases hlt : nan w = false ∧ rank w < rank a
      · rw [keep_of_lt ha hlt.1 hlt.2]
        exact ⟨Int.le_of_lt hlt.2, fun _ => Int.le_refl _⟩
      · have hkeep : keep nan rank a w = a := by
          cases hw : nan w with
          | true => simp [keep, hw]
          | false => exact keep_of_not_lt fun h => hlt ⟨hw, h⟩
        rw [hkeep]
        exact ⟨Int.le_refl _, fun hw => Int.not_lt.1 fun h => hlt ⟨hw, h⟩⟩
    have hfold : rank (rest.foldl (keep nan rank) (keep nan rank a w)) ≤ rank (keep nan rank a w) :=
      ih (nan_keep ha w) List.mem_cons_self (nan_keep ha w)
    rcases List.mem_cons.1 hv with rfl | hv
    · exact Int.le_trans hfold hstep.1
    · rcases List.mem_cons.1 hv with rfl | hv
      · exact Int.le_trans hfold (hstep.2 hnan)
      · exact ih (nan_keep ha w) (List.mem_cons_of_mem _ hv) hnan

end Keep

variable {T : Type} [Quantity T]

/-- The best of some values, NaNs left aside: one that comes before all others. If there is none,
the worst value there is. -/
structure Extreme (before : T → T → Bool) (worst : T) (vs : List T) (m : T) : Prop where
  isNumber : isNaN m = false
  before_all : ∀ v ∈ vs, isNaN v = false → before m v = true
  mem : (∃ v ∈ vs, isNaN v = false) → m ∈ vs
  of_nans : (∀ v ∈ vs, isNaN v = true) → m = worst

/-- The least of some values. -/
abbrev IsMinimum (vs : List T) (m : T) : Prop := Extreme numLe greatest vs m

/-- The greatest of some values. -/
abbrev IsMaximum (vs : List T) (m : T) : Prop := Extreme (fun a b => numLe b a) least vs m

/-- What is kept, of values after the worst one, is the best of the values. -/
theorem extreme_foldl_keep {before : T → T → Bool} {rank : T → Int} {worst : T}
    (hbefore : ∀ a b, isNaN a = false → isNaN b = false → rank a ≤ rank b → before a b = true)
    (hnumber : isNaN worst = false)
    (honly : ∀ v, isNaN v = false → rank worst ≤ rank v → v = worst) (vs : List T) :
    Extreme before worst vs (vs.foldl (keep isNaN rank) worst) := by
  have hnan : isNaN (vs.foldl (keep isNaN rank) worst) = false := nan_foldl_keep hnumber vs
  have hmem : vs.foldl (keep isNaN rank) worst ∈ worst :: vs := foldl_keep_mem worst vs
  refine ⟨hnan, fun v hv hvnan => ?_, fun hnumbers => ?_, fun hnans => ?_⟩
  · exact hbefore _ v hnan hvnan (rank_foldl_keep_le hnumber (List.mem_cons_of_mem _ hv) hvnan)
  · obtain ⟨v, hv, hvnan⟩ := hnumbers
    rcases List.mem_cons.1 hmem with heq | hmem
    · -- no value is better than the worst, so this one is the worst as well
      have hle : rank (vs.foldl (keep isNaN rank) worst) ≤ rank v :=
        rank_foldl_keep_le hnumber (List.mem_cons_of_mem worst hv) hvnan
      rw [heq] at hle ⊢
      exact honly v hvnan hle ▸ hv
    · exact hmem
  · rcases List.mem_cons.1 hmem with heq | hmem
    · exact heq
    · rw [hnans _ hmem] at hnan
      cases hnan

variable [Ranked T] [Bounded T]

theorem isMinimum_foldl_lower (vs : List T) : IsMinimum vs (vs.foldl lower greatest) := by
  rw [lower_eq_keep]
  refine extreme_foldl_keep (fun a b ha hb hab => ?_) Ranked.isNaN_greatest
    (fun _ => Bounded.eq_greatest) vs
  simp [Ranked.numLe_eq, ha, hb, hab]

theorem isMaximum_foldl_higher (vs : List T) : IsMaximum vs (vs.foldl higher least) := by
  rw [higher_eq_keep]
  refine extreme_foldl_keep (fun a b ha hb hab => ?_) Ranked.isNaN_least
    (fun _ hv hle => Bounded.eq_least hv (Int.neg_le_neg_iff.1 hle)) vs
  simp [Ranked.numLe_eq, ha, hb, Int.neg_le_neg_iff.1 hab]

end Quantity

end Metering
