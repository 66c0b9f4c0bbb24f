import Metering.Proofs.Histogram
import Metering.Proofs.Quantity.Nearest

/-!
# Integers between boundaries

A histogram of integers compares its boundaries with what an integer is converted to. That moves an
integer past no boundary, but it may move it onto one from below (`Boundaries.countUpTo_of_roundsTo`).
So an integer is counted in the bucket that it lies in exactly or in the one after it, and the latter
only if it has more than 53 digits (`Handle.integers_are_counted_as_converted`). -/

namespace Metering

open Quantity

/-! ## Boundaries up to an exact value -/

namespace Boundaries

variable (boundaries : Boundaries)

/-- How many boundaries lie at or below an exact value. -/
def countUpTo (q : ℚ) : Nat := boundaries.values.countP fun b => decide (b.toRat ≤ q)

theorem bucketOf_eq_countUpTo {x : Binary64} (hx : x.isNaN = false) :
    bucketOf boundaries.values x = boundaries.countUpTo x.toRat := by
  rw [bucketOf_eq_countP, countUpTo]
  refine List.countP_congr fun b hb => ?_
  rw [decide_eq_true_iff, Binary64.toRat_le_iff (boundaries.isNaN hb) hx]

theorem increasing_toRat : boundaries.values.Pairwise fun a b => a.toRat < b.toRat := by
  refine boundaries.increasing.imp_of_mem fun {a b} ha hb hab => ?_
  rw [← not_le, Binary64.toRat_le_iff (boundaries.isNaN hb) (boundaries.isNaN ha),
    Binary64.numLe_iff (boundaries.isNaN hb) (boundaries.isNaN ha)]
  omega

variable {q : ℚ} {x : Binary64}

/-- As many boundaries lie at or below a value as at or below the number that it is rounded to, unless
that number is a boundary above the value. -/
theorem countUpTo_of_no_boundary (h : x.RoundsTo q)
    (hno : ∀ b ∈ boundaries.values, b.toRat = x.toRat → b.toRat ≤ q) :
    boundaries.countUpTo x.toRat = boundaries.countUpTo q := by
  refine List.countP_congr fun b hb => ?_
  rw [decide_eq_true_iff, decide_eq_true_iff]
  refine ⟨fun hle => ?_, h.le_of_le (boundaries.isFinite hb)⟩
  by_contra hlt
  have hge := h.ge_of_ge (boundaries.isFinite hb) (le_of_not_ge hlt)
  exact hlt (hno b hb (le_antisymm hle hge))

/-- If it is one, then there is one more, as the boundaries before it lie below the value too. -/
theorem countUpTo_of_boundary (h : x.RoundsTo q) {b : Binary64} (hb : b ∈ boundaries.values)
    (hbx : b.toRat = x.toRat) (hqb : q < b.toRat) :
    boundaries.countUpTo x.toRat = boundaries.countUpTo q + 1 := by
  obtain ⟨before, after, hsplit⟩ := List.append_of_mem hb
  have hincreasing := boundaries.increasing_toRat
  rw [hsplit, List.pairwise_append, List.pairwise_cons] at hincreasing
  obtain ⟨-, ⟨hafter, -⟩, hbefore⟩ := hincreasing
  -- no boundary lies strictly between `q` and what it is rounded to, so those before `b` are below
  -- `q`
  have hlow (a : Binary64) (ha : a ∈ before) : a.toRat ≤ q := by
    have hmem : a ∈ boundaries.values := hsplit ▸ List.mem_append_left _ ha
    by_contra hlt
    have hge := h.ge_of_ge (boundaries.isFinite hmem) (le_of_not_ge hlt)
    have hab := hbefore a ha b List.mem_cons_self
    linarith
  -- the boundaries up to a number from `q` to `b` are those before `b`, and `b` itself if it is
  -- reached
  have hcount (p : ℚ) (hqp : q ≤ p) (hpb : p ≤ b.toRat) :
      boundaries.countUpTo p = before.length + if b.toRat ≤ p then 1 else 0 := by
    have hall : before.countP (fun a => decide (a.toRat ≤ p)) = before.length :=
      List.countP_eq_length.2 fun a ha => decide_eq_true ((hlow a ha).trans hqp)
    have hnone : after.countP (fun a => decide (a.toRat ≤ p)) = 0 :=
      List.countP_eq_zero.2 fun a ha => by
        have hba := hafter a ha
        rw [decide_eq_true_iff]
        linarith
    rw [countUpTo, hsplit, List.countP_append, List.countP_cons, hall, hnone, Nat.zero_add]
    simp only [decide_eq_true_eq]
  rw [hcount x.toRat (by linarith) (le_of_eq hbx.symm), hcount q le_rfl hqb.le, if_pos hbx.le,
    if_neg (not_le.2 hqb)]

/-- **Boundaries and rounding.** Rounding moves a value past no boundary, and at most onto one. -/
theorem countUpTo_of_roundsTo (h : x.RoundsTo q) :
    boundaries.countUpTo x.toRat = boundaries.countUpTo q +
      if ∃ b ∈ boundaries.values, b.toRat = x.toRat ∧ q < b.toRat then 1 else 0 := by
  split
  · rename_i hboundary
    obtain ⟨b, hb, hbx, hqb⟩ := hboundary
    exact boundaries.countUpTo_of_boundary h hb hbx hqb
  · rename_i hno
    refine boundaries.countUpTo_of_no_boundary h fun b hb hbx => ?_
    by_contra hlt
    exact hno ⟨b, hb, hbx, not_le.1 hlt⟩

end Boundaries

/-! ## Integers -/

namespace Quantity

/-- Integers of 64 binary digits, which are converted to the nearest floating-point number. -/
class Integral (T : Type) [Quantity T] [Ranked T] : Prop extends Exact T, Numeric T where
  natAbs_rank_lt (v : T) : (Ranked.rank v).natAbs < 2 ^ 64
  toBinary64_eq (v : T) : toBinary64 v = .ofInt (Ranked.rank v)

instance : Integral Int64 where
  natAbs_rank_lt v := by
    have hlow := v.le_toInt
    have hhigh := v.toInt_lt
    show v.toInt.natAbs < 2 ^ 64
    omega
  toBinary64_eq _ := rfl

instance : Integral UInt64 where
  natAbs_rank_lt v := v.toNat_lt
  toBinary64_eq _ := rfl

end Quantity

namespace Handle

variable {T : Type} [Quantity T] {boundaries : Boundaries} {recordsExtremes : Bool}

/-- A recording adds one to the bucket at an index, and changes no other. -/
def CountsIn (h : Handle T (.histogram boundaries recordsExtremes)) (r : Recording T) (i : Nat) :
    Prop :=
  i < (Distribution.buckets h.tally).length ∧
    ∀ j, (Distribution.buckets (h.record r).tally)[j]? =
      (Distribution.buckets h.tally)[j]?.map fun n => if j = i then n + 1 else n

/-- **Integers are counted as what they are converted to.** Take a histogram of integers over any
boundaries, however its handle came about, and a recording. Its value is converted to the nearest
floating-point number, ties to the even one. It is counted in the bucket whose index is the number of
boundaries at or below the converted value, and in no other. That is the number of boundaries at or
below the value itself, and one more if the value was rounded up to a boundary. Values of up to 53
digits are not rounded at all. -/
theorem integers_are_counted_as_converted [Ranked T] [Integral T] {sampling : SamplingPlan T}
    {h : Handle T (.histogram boundaries recordsExtremes)} (hh : h.Reached sampling)
    (r : Recording T) :
    let v : ℚ := Ranked.rank r.value
    let x := toBinary64 r.value
    x.RoundsTo v ∧
      ∃ i, h.CountsIn r i ∧
        i = boundaries.countUpTo x.toRat ∧
        i = boundaries.countUpTo v +
          (if ∃ b ∈ boundaries.values, b.toRat = x.toRat ∧ v < b.toRat then 1 else 0) ∧
        ((Ranked.rank r.value).natAbs ≤ 2 ^ 53 → i = boundaries.countUpTo v) := by
  intro v x
  have hround : x.RoundsTo v := by
    show (toBinary64 r.value).RoundsTo (Ranked.rank r.value : Int)
    rw [Integral.toBinary64_eq]
    exact Binary64.roundsTo_ofInt (Integral.natAbs_rank_lt r.value)
  have hnan : x.isNaN = false := Binary64.isNaN_of_isFinite hround.finite
  have hbalanced : Distribution.Balanced boundaries h.tally :=
    (Distribution.keeps_balanced boundaries recordsExtremes).reached hh
  obtain ⟨i, hlt, hbucket, hmodify⟩ := hbalanced.buckets_record (Exact.isNumber r.value)
  have hindex : i = boundaries.countUpTo x.toRat :=
    ((boundaries.inBucket_iff hnan).1 ((hbucket i).2 rfl)).trans
      (boundaries.bucketOf_eq_countUpTo hnan)
  refine ⟨hround, i, ⟨hlt, hmodify⟩, hindex, ?_, fun hdigits => ?_⟩
  · exact hindex.trans (boundaries.countUpTo_of_roundsTo hround)
  · have hexact : x.toRat = v := by
      show (toBinary64 r.value).toRat = (Ranked.rank r.value : Int)
      rw [Integral.toBinary64_eq]
      exact Binary64.toRat_ofInt hdigits
    rw [hindex, hexact]

/-- One boundary, which is `2 ^ 53 + 4`. -/
def beyond53Digits : Boundaries := ⟨[⟨0x4340000000000002⟩], by decide⟩

theorem integers_are_counted_as_converted_to_boundary :
    let h : Handle UInt64 (.histogram beyond53Digits true) := .fresh _ .none
    let r : Recording UInt64 := { value := 9007199254740995 }
    let r' : Recording UInt64 := { value := 9007199254740992 }
    h.Reached .none ∧
      h.CountsIn r (beyond53Digits.countUpTo (Ranked.rank r.value : Int) + 1) ∧
      (Ranked.rank r'.value).natAbs ≤ 2 ^ 53 ∧
      h.CountsIn r' (beyond53Digits.countUpTo (Ranked.rank r'.value : Int)) := by
  intro h r r'
  have hh : h.Reached .none := .fresh
  obtain ⟨-, i, hi, -, hcount, -⟩ := integers_are_counted_as_converted hh r
  obtain ⟨-, i', hi', -, -, hexact⟩ := integers_are_counted_as_converted hh r'
  rw [if_pos (by decide +kernel)] at hcount
  have hdigits : (Ranked.rank r'.value).natAbs ≤ 2 ^ 53 := by decide +kernel
  exact ⟨hh, hcount ▸ hi, hdigits, hexact hdigits ▸ hi'⟩

/-- An integer just below the only boundary is rounded up to it, and is counted in the bucket above. -/
theorem integer_is_counted_above_boundary :
    let h : Handle UInt64 (.histogram beyond53Digits true) := .fresh _ .none
    let r : Recording UInt64 := { value := 9007199254740995 }
    beyond53Digits.countUpTo (Ranked.rank r.value : Int) = 0 ∧
      Distribution.buckets h.tally = [0, 0] ∧
      Distribution.buckets (h.record r).tally = [0, 1] := by
  decide +kernel

end Handle

end Metering
