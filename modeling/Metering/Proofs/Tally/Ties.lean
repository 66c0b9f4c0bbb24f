import Metering.Proofs.Boundaries
import Metering.Proofs.Tally
import Mathlib.Data.Int.Order.Basic

/-!
# Latest values at the same time

Of two latest values the later one stays, so the time of a merge is the greater one
(`Latest.time_merge`) and the order of merges matters to nothing but values of one time. A tie goes to
the value that is not the smaller one. Numbers have a greater one of the two, but a NaN is neither
smaller nor greater than anything: it wins as the first of two and loses as the second. So the merge of
floating-point numbers depends on the order exactly where a NaN and a number have the same time
(`Accumulation.merges_agree_up_to_tied_nans`).
-/

namespace Metering

open Quantity

/-! ## Numbers -/

namespace Binary64

/-- Two values are alike if they are equal numbers, as the two zeros are, or both no numbers. -/
def Alike (x y : Binary64) : Prop := x.numEq y = true ∨ x.isNaN = true ∧ y.isNaN = true

instance (x y : Binary64) : Decidable (x.Alike y) :=
  inferInstanceAs (Decidable (x.numEq y = true ∨ x.isNaN = true ∧ y.isNaN = true))

/-- A value is like itself. -/
theorem Alike.refl (x : Binary64) : x.Alike x := by
  cases hx : x.isNaN with
  | false => exact .inl (by simp [numEq, hx])
  | true => exact .inr ⟨hx, hx⟩

/-- A number is like a value if that is a number of the same rank. -/
theorem alike_iff {x y : Binary64} (hx : x.isNaN = false) :
    x.Alike y ↔ y.isNaN = false ∧ x.rank = y.rank := by
  simp [Alike, numEq, hx]

/-- Values that are alike are NaNs together. -/
theorem Alike.isNaN_eq {x y : Binary64} (h : x.Alike y) : x.isNaN = y.isNaN := by
  cases hx : x.isNaN with
  | false => exact ((alike_iff hx).1 h).1.symm
  | true =>
    rcases h with hequal | hnans
    · simp [numEq, hx] at hequal
    · exact hnans.2.symm

/-- The value that a tie goes to: the second one, if it is not smaller. -/
def ofTie (x y : Binary64) : Binary64 := if x.numLe y then y else x

/-- If either is a NaN, the first one stays. -/
theorem ofTie_of_isNaN {x y : Binary64} (h : x.isNaN = true ∨ y.isNaN = true) : x.ofTie y = x := by
  rw [ofTie, if_neg]
  rcases h with hx | hy
  · simp [numLe, hx]
  · simp [numLe, hy]

/-- Of two numbers the greater one is kept, the second one if they are equal. -/
theorem ofTie_of_numbers {x y : Binary64} (hx : x.isNaN = false) (hy : y.isNaN = false) :
    x.ofTie y = if x.rank ≤ y.rank then y else x := by
  simp only [ofTie, numLe_iff hx hy]

/-- A tie goes to a NaN exactly if the first value is one. -/
theorem isNaN_ofTie (x y : Binary64) : (x.ofTie y).isNaN = x.isNaN := by
  by_cases hnan : x.isNaN = true ∨ y.isNaN = true
  · rw [ofTie_of_isNaN hnan]
  · simp only [not_or, Bool.not_eq_true] at hnan
    rw [ofTie_of_numbers hnan.1 hnan.2]
    split
    · rw [hnan.1, hnan.2]
    · rfl

/-- A tie of two numbers goes to one of the greater rank. -/
theorem rank_ofTie {x y : Binary64} (hx : x.isNaN = false) (hy : y.isNaN = false) :
    (x.ofTie y).rank = max x.rank y.rank := by
  rw [ofTie_of_numbers hx hy]
  split <;> omega

/-- The order of two values that are tied does not matter, unless just one of them is a NaN. -/
theorem alike_ofTie_comm_iff {x y : Binary64} :
    (x.ofTie y).Alike (y.ofTie x) ↔ x.isNaN = y.isNaN := by
  refine ⟨fun h => ?_, fun h => ?_⟩
  · have hnan := h.isNaN_eq
    rwa [isNaN_ofTie, isNaN_ofTie] at hnan
  · cases hx : x.isNaN with
    | true =>
      rw [hx] at h
      rw [ofTie_of_isNaN (.inl hx), ofTie_of_isNaN (.inl h.symm)]
      exact .inr ⟨hx, h.symm⟩
    | false =>
      rw [hx] at h
      refine (alike_iff ((isNaN_ofTie x y).trans hx)).2 ⟨(isNaN_ofTie y x).trans h.symm, ?_⟩
      rw [rank_ofTie hx h.symm, rank_ofTie h.symm hx, Int.max_comm]

/-- The grouping of three values that are tied does not matter, unless a NaN stands between a smaller
number and a greater one. -/
theorem alike_ofTie_assoc_iff {x y z : Binary64} :
    ((x.ofTie y).ofTie z).Alike (x.ofTie (y.ofTie z)) ↔
      ¬ (y.isNaN = true ∧ x.numLt z = true) := by
  cases hx : x.isNaN with
  | true =>
    rw [ofTie_of_isNaN (.inl hx), ofTie_of_isNaN (.inl hx), ofTie_of_isNaN (.inl hx)]
    exact iff_of_true (.refl x) fun h => by simp [numLt, hx] at h
  | false =>
    cases hy : y.isNaN with
    | true =>
      -- the NaN shields the first value from the last one on the right
      rw [ofTie_of_isNaN (.inr hy), ofTie_of_isNaN (x := y) (.inl hy), ofTie_of_isNaN (.inr hy)]
      cases hz : z.isNaN with
      | true =>
        rw [ofTie_of_isNaN (.inr hz)]
        exact iff_of_true (.refl x) fun h => by simp [numLt, hz] at h
      | false =>
        rw [alike_iff ((isNaN_ofTie x z).trans hx), rank_ofTie hx hz, numLt_iff hx hz]
        simp only [hx, true_and]
        omega
    | false =>
      cases hz : z.isNaN with
      | true =>
        rw [ofTie_of_isNaN (.inr hz), ofTie_of_isNaN (.inr hz)]
        exact iff_of_true (.refl _) fun h => Bool.false_ne_true h.1
      | false =>
        have hxy : (x.ofTie y).isNaN = false := (isNaN_ofTie x y).trans hx
        have hyz : (y.ofTie z).isNaN = false := (isNaN_ofTie y z).trans hy
        refine iff_of_true ?_ fun h => Bool.false_ne_true h.1
        refine (alike_iff ((isNaN_ofTie _ z).trans hxy)).2 ⟨(isNaN_ofTie x _).trans hx, ?_⟩
        rw [rank_ofTie hxy hz, rank_ofTie hx hy, rank_ofTie hx hyz, rank_ofTie hy hz, Int.max_assoc]

end Binary64

/-! ## Latest values -/

namespace Latest

section AnyQuantity

variable {T : Type} [Quantity T]

/-- A value that comes with an earlier time does not take the place of the other. -/
theorem merge_of_earlier {previous current : Latest T} (h : current.time < previous.time) :
    previous.merge current = previous := by
  simp [merge, isSuperseded, h, not_lt_of_gt h]

/-- The time of a merge is the later one. -/
theorem time_merge (a b : Latest T) : (a.merge b).time = max a.time b.time := by
  rcases lt_trichotomy a.time b.time with hlt | heq | hgt
  · rw [merge_of_later hlt, max_eq_right hlt.le]
  · rw [merge, heq, max_self]
    split
    · rfl
    · exact heq
  · rw [merge_of_earlier hgt, max_eq_left hgt.le]

/-- At different times the later value is kept, in either order. -/
theorem merge_comm_of_ne {a b : Latest T} (h : a.time ≠ b.time) : a.merge b = b.merge a := by
  rcases lt_or_gt_of_ne h with hlt | hgt
  · rw [merge_of_later hlt, merge_of_earlier hlt]
  · rw [merge_of_earlier hgt, merge_of_later hgt]

/-- Three latest values may be merged in either grouping, unless they all have the same time. -/
theorem merge_assoc_of_ne {a b c : Latest T} (h : ¬ (a.time = b.time ∧ b.time = c.time)) :
    (a.merge b).merge c = a.merge (b.merge c) := by
  rcases lt_trichotomy a.time b.time with hlt | heq | hgt
  · -- the first one is left behind by the second one, and by whatever that is merged with
    have hlater : a.time < (b.merge c).time := by
      rw [time_merge]
      exact lt_of_lt_of_le hlt (le_max_left b.time c.time)
    rw [merge_of_later hlt, merge_of_later hlater]
  · have htime : (a.merge b).time = b.time := by rw [time_merge, heq, max_self]
    rcases lt_or_gt_of_ne fun hbc => h ⟨heq, hbc⟩ with hlt | hgt
    · rw [merge_of_later (htime ▸ hlt), merge_of_later hlt, merge_of_later (heq ▸ hlt)]
    · rw [merge_of_earlier (htime ▸ hgt), merge_of_earlier hgt]
  · rw [merge_of_earlier hgt]
    rcases lt_or_ge b.time c.time with hlt | hge
    · rw [merge_of_later hlt]
    · -- neither of the other two is as late as the first one
      have hearlier : (b.merge c).time < a.time := by
        rw [time_merge, max_eq_left hge]
        exact hgt
      rw [merge_of_earlier (lt_of_le_of_lt hge hgt), merge_of_earlier hearlier]

end AnyQuantity

/-- At the same time the tie is broken by the values. -/
theorem value_merge_of_eq {a b : Latest Binary64} (h : a.time = b.time) :
    (a.merge b).value = a.value.ofTie b.value := by
  have hsuperseded : a.isSuperseded b = a.value.numLe b.value := by
    simp [isSuperseded, h]
    rfl
  rw [merge, hsuperseded, Binary64.ofTie]
  split <;> rfl

end Latest

/-! ## Accumulations -/

namespace Accumulation

/-- **Merges of latest values, up to tied NaNs.** Merging in another order or in another grouping gives
the same time, and it gives a value alike unless a NaN is tied with a number: of two, unless they have
the same time and just one of them is a NaN, and of three, unless all have the same time and a NaN
stands between a smaller number and a greater one. -/
theorem merges_agree_up_to_tied_nans (a b c : Accumulation Binary64 .lastValue) :
    ((a.merge b).tally.time = (b.merge a).tally.time ∧
      ((a.merge b).tally.value.Alike (b.merge a).tally.value ↔
        ¬ (a.tally.time = b.tally.time ∧ a.tally.value.isNaN ≠ b.tally.value.isNaN))) ∧
    ((a.merge b).merge c).tally.time = (a.merge (b.merge c)).tally.time ∧
      (((a.merge b).merge c).tally.value.Alike (a.merge (b.merge c)).tally.value ↔
        ¬ (a.tally.time = b.tally.time ∧ b.tally.time = c.tally.time ∧
          b.tally.value.isNaN = true ∧ a.tally.value.numLt c.tally.value = true)) := by
  obtain ⟨a, -⟩ := a
  obtain ⟨b, -⟩ := b
  obtain ⟨c, -⟩ := c
  refine ⟨⟨?_, ?_⟩, ?_, ?_⟩
  · show (Latest.merge a b).time = (Latest.merge b a).time
    rw [Latest.time_merge, Latest.time_merge, max_comm]
  · show (Latest.merge a b).value.Alike (Latest.merge b a).value ↔ _
    by_cases htie : a.time = b.time
    · rw [Latest.value_merge_of_eq htie, Latest.value_merge_of_eq htie.symm,
        Binary64.alike_ofTie_comm_iff]
      simp [htie]
    · rw [Latest.merge_comm_of_ne htie]
      exact iff_of_true (.refl _) fun h => htie h.1
  · show ((Latest.merge a b).merge c).time = (Latest.merge a (Latest.merge b c)).time
    simp only [Latest.time_merge, max_assoc]
  · show ((Latest.merge a b).merge c).value.Alike (Latest.merge a (Latest.merge b c)).value ↔ _
    -- all three at one time, where ties decide; otherwise times do at least once
    by_cases htie : a.time = b.time ∧ b.time = c.time
    · obtain ⟨hab, hbc⟩ := htie
      have htime : (Latest.merge a b).time = c.time := by
        rw [Latest.time_merge, hab, max_self, hbc]
      have htime' : a.time = (Latest.merge b c).time := by
        rw [Latest.time_merge, hbc, max_self, hab, hbc]
      rw [Latest.value_merge_of_eq htime, Latest.value_merge_of_eq hab,
        Latest.value_merge_of_eq htime', Latest.value_merge_of_eq hbc,
        Binary64.alike_ofTie_assoc_iff]
      simp [hab, hbc]
    · rw [Latest.merge_assoc_of_ne htie]
      exact iff_of_true (.refl _) fun h => htie ⟨h.1, h.2.1⟩

/-- A NaN and a number that have the same time: the one that comes first stays. -/
theorem tied_nan_stays_where_it_comes_first :
    let nan : Accumulation Binary64 .lastValue := { tally := ⟨.nan, 1⟩ }
    let one : Accumulation Binary64 .lastValue := { tally := ⟨⟨0x3FF0000000000000⟩, 1⟩ }
    let zero : Accumulation Binary64 .lastValue := { tally := ⟨.zero, 1⟩ }
    ¬ (nan.merge one).tally.value.Alike (one.merge nan).tally.value ∧
      ¬ ((zero.merge nan).merge one).tally.value.Alike
        (zero.merge (nan.merge one)).tally.value := by
  decide

end Accumulation

end Metering
