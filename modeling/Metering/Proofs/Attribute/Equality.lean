import Metering.Attribute.Set

/-!
# Sameness of attribute sets

Sameness of attribute sets is symmetric and transitive. It is not reflexive: a set with a NaN inside
a list of floats is not the same as itself. What is proved of series and tables therefore rests on
`PartialEquivBEq`, and a set that equals itself says so.
-/

namespace Metering

/-! ## Numbers -/

/-- Numbers are equal in either order. -/
theorem Binary64.numEq_symm {x y : Binary64} (h : x.numEq y = true) : y.numEq x = true := by
  simp only [Binary64.numEq, Bool.and_eq_true, Bool.not_eq_true', decide_eq_true_eq] at h ⊢
  exact ⟨⟨h.1.2, h.1.1⟩, h.2.symm⟩

/-- Numbers that are equal to the same one are equal. -/
theorem Binary64.numEq_trans {x y z : Binary64} (hxy : x.numEq y = true)
    (hyz : y.numEq z = true) : x.numEq z = true := by
  simp only [Binary64.numEq, Bool.and_eq_true, Bool.not_eq_true', decide_eq_true_eq] at hxy hyz ⊢
  exact ⟨⟨hxy.1.1, hyz.1.2⟩, hxy.2.trans hyz.2⟩

/-! ## Lists, element by element -/

/-- A symmetric relation of elements is symmetric on lists. -/
theorem isEqv_symm {α : Type} {r : α → α → Bool} (hr : ∀ a b, r a b = true → r b a = true)
    {l m : List α} (h : l.isEqv m r = true) : m.isEqv l r = true := by
  induction l generalizing m with
  | nil =>
    cases m with
    | nil => rfl
    | cons b bs => exact absurd h Bool.false_ne_true
  | cons a as ih =>
    cases m with
    | nil => exact absurd h Bool.false_ne_true
    | cons b bs =>
      rw [List.isEqv_cons_cons, Bool.and_eq_true] at h ⊢
      exact ⟨hr a b h.1, ih h.2⟩

/-- A transitive relation of elements is transitive on lists. -/
theorem isEqv_trans {α : Type} {r : α → α → Bool}
    (hr : ∀ a b c, r a b = true → r b c = true → r a c = true) {l m n : List α}
    (hlm : l.isEqv m r = true) (hmn : m.isEqv n r = true) : l.isEqv n r = true := by
  induction l generalizing m n with
  | nil =>
    cases m with
    | nil => exact hmn
    | cons b bs => exact absurd hlm Bool.false_ne_true
  | cons a as ih =>
    cases m with
    | nil => exact absurd hlm Bool.false_ne_true
    | cons b bs =>
      cases n with
      | nil => exact absurd hmn Bool.false_ne_true
      | cons c cs =>
        rw [List.isEqv_cons_cons, Bool.and_eq_true] at hlm hmn ⊢
        exact ⟨hr a b c hlm.1 hmn.1, ih hlm.2 hmn.2⟩

/-! ## Values -/

namespace Value

/-- Values of floats are equal as numbers are. -/
theorem float_beq_float (x y : Binary64) : (Value.float x == .float y) = x.numEq y := rfl

/-- Lists of floats are equal member by member. -/
theorem floats_beq_floats (xs ys : List Binary64) :
    (Value.floats xs == .floats ys) = xs.isEqv ys Binary64.numEq := rfl

/-- Equal values are one and the same, or floats or lists of floats that are equal as numbers. -/
theorem beq_cases {a b : Value} (h : (a == b) = true) :
    a = b ∨ (∃ x y, a = .float x ∧ b = .float y ∧ x.numEq y = true) ∨
      ∃ xs ys, a = .floats xs ∧ b = .floats ys ∧ xs.isEqv ys Binary64.numEq = true := by
  change Value.beq a b = true at h
  unfold Value.beq at h
  split at h
  case h_3 x y => exact .inr (.inl ⟨x, y, rfl, rfl, h⟩)
  case h_7 xs ys => exact .inr (.inr ⟨xs, ys, rfl, rfl, h⟩)
  case h_9 => exact absurd h Bool.false_ne_true
  all_goals exact .inl (congrArg _ (eq_of_beq h))

instance : PartialEquivBEq Value where
  symm {a b} h := by
    obtain rfl | ⟨x, y, rfl, rfl, hxy⟩ | ⟨xs, ys, rfl, rfl, hxy⟩ := beq_cases h
    · exact h
    · rw [float_beq_float]
      exact Binary64.numEq_symm hxy
    · rw [floats_beq_floats]
      exact isEqv_symm (r := Binary64.numEq) (fun _ _ => Binary64.numEq_symm) hxy
  trans {a b c} hab hbc := by
    obtain rfl | ⟨x, y, rfl, rfl, hxy⟩ | ⟨xs, ys, rfl, rfl, hxy⟩ := beq_cases hab
    · exact hbc
    · obtain rfl | ⟨y', z, hy, rfl, hyz⟩ | ⟨_, _, hy, -⟩ := beq_cases hbc
      · exact hab
      · cases hy
        rw [float_beq_float]
        exact Binary64.numEq_trans hxy hyz
      · cases hy
    · obtain rfl | ⟨_, _, hy, -⟩ | ⟨ys', zs, hy, rfl, hyz⟩ := beq_cases hbc
      · exact hab
      · cases hy
      · cases hy
        rw [floats_beq_floats]
        exact isEqv_trans (r := Binary64.numEq) (fun _ _ _ => Binary64.numEq_trans) hxy hyz

/-- Same members are floats with the same bits, or equal values of which the first is no float. -/
theorem sameMember_cases {a b : Value} (h : a.sameMember b = true) :
    (∃ x, a = .float x ∧ b = .float x) ∨ ((∀ x, a ≠ .float x) ∧ (a == b) = true) := by
  unfold sameMember at h
  split at h
  case h_1 x y => exact .inl ⟨x, rfl, congrArg Value.float (congrArg Binary64.mk (eq_of_beq h).symm)⟩
  case h_2 hnot =>
    refine .inr ⟨fun x hx => ?_, h⟩
    obtain rfl | ⟨_, y, -, rfl, -⟩ | ⟨_, _, rfl, -⟩ := beq_cases h
    · exact hnot x x hx hx
    · exact hnot x y hx rfl
    · cases hx

/-- Where the first is no float, same members are equal values. -/
theorem sameMember_eq_beq {a b : Value} (ha : ∀ x, a ≠ .float x) : a.sameMember b = (a == b) := by
  unfold sameMember
  split
  · exact absurd rfl (ha _)
  · rfl

/-- What equals a value that is no float is no float either. -/
theorem ne_float_of_beq {a b : Value} (ha : ∀ x, a ≠ .float x) (h : (a == b) = true) :
    ∀ x, b ≠ .float x := by
  intro x hx
  obtain rfl | ⟨y, _, hy, -⟩ | ⟨_, _, -, hy, -⟩ := beq_cases h
  · exact ha x hx
  · exact ha y hy
  · exact absurd (hx ▸ hy) nofun

/-- Values that may stand for each other do so in either order. -/
theorem sameMember_symm {a b : Value} (h : a.sameMember b = true) : b.sameMember a = true := by
  obtain ⟨x, rfl, rfl⟩ | ⟨ha, hab⟩ := sameMember_cases h
  · exact h
  · rw [sameMember_eq_beq (ne_float_of_beq ha hab)]
    exact BEq.symm hab

/-- Values that may stand for the same one may stand for each other. -/
theorem sameMember_trans {a b c : Value} (hab : a.sameMember b = true)
    (hbc : b.sameMember c = true) : a.sameMember c = true := by
  obtain ⟨x, rfl, rfl⟩ | ⟨ha, heq⟩ := sameMember_cases hab
  · exact hbc
  · rw [sameMember_eq_beq (ne_float_of_beq ha heq)] at hbc
    rw [sameMember_eq_beq ha]
    exact BEq.trans heq hbc

end Value

/-! ## Sets -/

namespace AttributeSet

instance : PartialEquivBEq AttributeSet where
  symm {a b} h := by
    obtain ⟨hmembers, hdigest⟩ := Bool.and_eq_true_iff.1 h
    refine Bool.and_eq_true_iff.2 ⟨isEqv_symm (fun x y hxy => ?_) hmembers, BEq.symm hdigest⟩
    obtain ⟨hkey, hvalue⟩ := Bool.and_eq_true_iff.1 hxy
    exact Bool.and_eq_true_iff.2 ⟨BEq.symm hkey, Value.sameMember_symm hvalue⟩
  trans {a b c} hab hbc := by
    obtain ⟨hmembers, hdigest⟩ := Bool.and_eq_true_iff.1 hab
    obtain ⟨hmembers', hdigest'⟩ := Bool.and_eq_true_iff.1 hbc
    refine Bool.and_eq_true_iff.2
      ⟨isEqv_trans (fun x y z hxy hyz => ?_) hmembers hmembers', BEq.trans hdigest hdigest'⟩
    obtain ⟨hkey, hvalue⟩ := Bool.and_eq_true_iff.1 hxy
    obtain ⟨hkey', hvalue'⟩ := Bool.and_eq_true_iff.1 hyz
    exact Bool.and_eq_true_iff.2 ⟨BEq.trans hkey hkey', Value.sameMember_trans hvalue hvalue'⟩

end AttributeSet

end Metering
