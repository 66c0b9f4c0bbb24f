import Metering.Proofs.Attribute.Equality

/-!
# Attribute sets and their lists

Sets that are the same have the same list of attributes (`AttributeSet.toList_eq_of_beq`). Equality of
values would tell the two zeros inside a list of floats not apart, but their texts differ, and so do
the digests.

The converse does not hold of every set. One without a NaN inside a list of floats equals itself. Such
a set and another one with the same list of attributes are the same, unless only one of them has a
digest: that is the blank set, beside the set that was built from no attributes.
-/

namespace Metering

/-- A relation that holds of every element and itself holds of the list and itself. -/
theorem isEqv_self {α : Type} {r : α → α → Bool} {l : List α} (h : ∀ a ∈ l, r a a = true) :
    l.isEqv l r = true := by
  induction l with
  | nil => rfl
  | cons a rest ih =>
    rw [List.isEqv_cons_cons, h a List.mem_cons_self,
      ih fun b hb => h b (List.mem_cons_of_mem _ hb), Bool.true_and]

/-! ## Numerals -/

namespace Binary64

/-- A number is its sign and its magnitude. -/
theorem eq_of_magnitude {x y : Binary64} (hsign : x.signBit = y.signBit)
    (hmagnitude : x.magnitude = y.magnitude) : x = y := by
  have hx := x.bits.toNat_lt
  have hy := y.bits.toNat_lt
  have hsign := decide_eq_decide.1 hsign
  simp only [magnitude, signPlace] at hsign hmagnitude
  have hbits : x.bits.toNat = y.bits.toNat := by omega
  exact congrArg Binary64.mk (UInt64.toNat_inj.1 hbits)

/-- Equal numbers are one and the same, or the two zeros. -/
theorem numEq_cases {x y : Binary64} (h : x.numEq y = true) :
    x = y ∨ x.magnitude = 0 ∧ y.magnitude = 0 ∧ x.signBit ≠ y.signBit := by
  have hrank : x.rank = y.rank := of_decide_eq_true (Bool.and_eq_true_iff.1 h).2
  unfold rank at hrank
  by_cases hsign : x.signBit = y.signBit
  · refine .inl (eq_of_magnitude hsign ?_)
    rw [hsign] at hrank
    split at hrank <;> omega
  · refine .inr ⟨?_, ?_, hsign⟩
    all_goals
      cases hx : x.signBit <;> cases hy : y.signBit <;> simp [hx, hy] at hrank hsign <;> omega

/-- The numeral of a zero shows its sign. -/
theorem toList_numeral_of_zero {x : Binary64} (h : x.magnitude = 0) :
    (x.numeral .plain).toList = if x.signBit then ['-', '0'] else ['0'] := by
  have hnan : x.isNaN = false := by simp [isNaN, h]
  have hfinite : x.isInfinite = false := by simp [isInfinite, h, infiniteMagnitude]
  rw [numeral, hnan, hfinite, h]
  cases x.signBit <;> rfl

/-- Equal numbers with numerals that a text begins with both are the same. -/
theorem eq_of_numeral_append {x y : Binary64} (h : x.numEq y = true) {l m : List Char}
    (htext : (x.numeral .plain).toList ++ l = (y.numeral .plain).toList ++ m) : x = y := by
  obtain rfl | ⟨hx, hy, hsign⟩ := numEq_cases h
  · rfl
  · rw [toList_numeral_of_zero hx, toList_numeral_of_zero hy] at htext
    cases hxs : x.signBit <;> cases hys : y.signBit <;> simp_all

end Binary64

/-- Lists of equal numbers with the same text are the same. -/
theorem Value.eq_of_listText_eq {xs ys : List Binary64} (h : xs.isEqv ys Binary64.numEq = true)
    (htext : listText (xs.map (Binary64.numeral .plain)) =
      listText (ys.map (Binary64.numeral .plain))) : xs = ys := by
  have hchars : [','].intercalate (xs.map fun x => (x.numeral .plain).toList) =
      [','].intercalate (ys.map fun y => (y.numeral .plain).toList) := by
    simpa [listText, ← String.toList_inj, String.toList_intercalate, Function.comp_def] using htext
  clear htext
  induction xs generalizing ys with
  | nil =>
    cases ys with
    | nil => rfl
    | cons y ys => exact absurd h Bool.false_ne_true
  -- the first numerals end where a comma or the text does, so that they can be read off both texts
  | cons x xs ih =>
    cases ys with
    | nil => exact absurd h Bool.false_ne_true
    | cons y ys =>
      rw [List.isEqv_cons_cons, Bool.and_eq_true] at h
      obtain ⟨hxy, hrest⟩ := h
      cases xs with
      | nil =>
        cases ys with
        | nil =>
          rw [List.map_singleton, List.map_singleton, List.intercalate_singleton,
            List.intercalate_singleton, ← List.append_nil (x.numeral _).toList,
            ← List.append_nil (y.numeral _).toList] at hchars
          rw [Binary64.eq_of_numeral_append hxy hchars]
        | cons y' ys => exact absurd hrest Bool.false_ne_true
      | cons x' xs =>
        cases ys with
        | nil => exact absurd hrest Bool.false_ne_true
        | cons y' ys =>
          simp only [List.map_cons, List.intercalate_cons_cons, List.append_assoc] at hchars ih
          obtain rfl := Binary64.eq_of_numeral_append hxy hchars
          have htail := List.append_cancel_left (List.append_cancel_left hchars)
          rw [ih hrest htail]

/-! ## Values -/

namespace Value

/-- No NaN stands inside a list of floats. -/
def ListsNumbers : Value → Prop
  | .floats xs => ∀ x ∈ xs, x.isNaN = false
  | _ => True

instance : (v : Value) → Decidable v.ListsNumbers
  | .floats xs => inferInstanceAs (Decidable (∀ x ∈ xs, x.isNaN = false))
  | .bool _ | .int _ | .float _ | .text _ | .bools _ | .ints _ | .texts _ =>
    inferInstanceAs (Decidable True)

/-- Same members with the same imprint are the same. -/
theorem eq_of_sameMember {a b : Value} (h : a.sameMember b = true)
    (himprint : a.imprint = b.imprint) : a = b := by
  obtain ⟨x, rfl, rfl⟩ | ⟨ha, hab⟩ := sameMember_cases h
  · rfl
  · obtain rfl | ⟨x, y, rfl, -⟩ | ⟨xs, ys, rfl, rfl, hxy⟩ := beq_cases hab
    · rfl
    · exact absurd rfl (ha x)
    · exact congrArg Value.floats (eq_of_listText_eq hxy (Imprint.text.inj himprint))

/-- A value whose lists have numbers only may stand for itself. -/
theorem self_sameMember {v : Value} (h : v.ListsNumbers) : v.sameMember v = true := by
  cases v with
  | float x => exact beq_self_eq_true x.bits
  | floats xs =>
    refine isEqv_self (r := Binary64.numEq) fun x hx => ?_
    simp [Binary64.numEq, h x hx]
  | bool b => exact beq_self_eq_true b
  | int n => exact beq_self_eq_true n
  | text s => exact beq_self_eq_true s
  | bools bs => exact beq_self_eq_true bs
  | ints ns => exact beq_self_eq_true ns
  | texts ss => exact beq_self_eq_true ss

end Value

/-! ## Sets -/

namespace AttributeSet

/-- Sets that are the same have the same attributes. -/
theorem toList_eq_of_beq {a b : AttributeSet} (h : (a == b) = true) : a.toList = b.toList := by
  obtain ⟨hmembers, hdigest⟩ := Bool.and_eq_true_iff.1 h
  have hdigest : a.digest = b.digest := eq_of_beq hdigest
  -- a set without a digest is empty, and so is any that equals it; otherwise the digests are
  -- compared
  cases ha : a.digested with
  | false =>
    have hempty := a.empty_of_undigested ha
    rw [hempty] at hmembers ⊢
    cases hb : b.toList with
    | nil => rfl
    | cons y ys =>
      rw [hb] at hmembers
      exact absurd hmembers Bool.false_ne_true
  | true =>
    have himprints : a.toList.map (fun x => (x.key, x.value.imprint)) =
        b.toList.map fun x => (x.key, x.value.imprint) := by
      cases hb : b.digested with
      | false => simp [digest, ha, hb] at hdigest
      | true => simpa [digest, ha, hb] using hdigest
    generalize a.toList = l at hmembers himprints
    generalize b.toList = m at hmembers himprints
    -- by induction on the members: the imprints in the digest tell zeros apart, which `==` does not
    induction l generalizing m with
    | nil => simpa using himprints.symm
    | cons x xs ih =>
      cases m with
      | nil => cases himprints
      | cons y ys =>
        obtain ⟨hhead, hrest⟩ := List.cons.inj himprints
        rw [List.isEqv_cons_cons, Bool.and_eq_true] at hmembers
        obtain ⟨hkey, hvalue⟩ := Bool.and_eq_true_iff.1 hmembers.1
        have hvalue := Value.eq_of_sameMember hvalue (congrArg Prod.snd hhead)
        have hxy : x = y := by
          obtain ⟨_, _⟩ := x
          obtain ⟨_, _⟩ := y
          cases eq_of_beq hkey
          cases hvalue
          rfl
        rw [hxy, ih ys hmembers.2 hrest]

/-- A set equals itself if its lists have numbers only. -/
theorem self_beq {set : AttributeSet} (h : ∀ a ∈ set.toList, a.value.ListsNumbers) :
    (set == set) = true := by
  refine Bool.and_eq_true_iff.2 ⟨isEqv_self fun a ha => ?_, beq_self_eq_true set.digest⟩
  rw [beq_self_eq_true a.key, Value.self_sameMember (h a ha), Bool.and_self]

/-- A set is its list of attributes with or without a digest. -/
theorem eq_of_toList {a b : AttributeSet} (hlist : a.toList = b.toList)
    (hdigested : a.digested = b.digested) : a = b := by
  obtain ⟨⟨l, hl⟩, _, _⟩ := a
  obtain ⟨⟨l', hl'⟩, _, _⟩ := b
  cases hlist
  cases hdigested
  rfl

/-- Only the blank set has no digest. -/
theorem digested_of_ne_blank {set : AttributeSet} (h : set ≠ .blank) : set.digested = true := by
  cases hset : set.digested with
  | true => rfl
  | false => exact absurd (eq_of_toList (set.empty_of_undigested hset) hset) h

/-- Sets that differ, though they equal themselves, have different lists, or else no attributes. -/
theorem toList_eq_nil_of_ne {a b : AttributeSet} (hself : (a == a) = true)
    (hne : (a == b) = false) (hlist : a.toList = b.toList) :
    a.toList = [] ∧ (a.digested = false ∨ b.digested = false) := by
  have hdigested : a.digested ≠ b.digested := by
    intro hdigested
    rw [← eq_of_toList hlist hdigested, hself] at hne
    cases hne
  cases ha : a.digested with
  | false => exact ⟨a.empty_of_undigested ha, .inl rfl⟩
  | true =>
    have hb : b.digested = false := by simpa [ha] using hdigested
    exact ⟨hlist.trans (b.empty_of_undigested hb), .inr hb⟩

end AttributeSet

/-! ## Sets of recordings -/

/-- What is in a map after insertions was there or was inserted. -/
theorem AttributeMap.mem_insertAll {m : AttributeMap} {attributes : List Attribute} {a : Attribute}
    (h : a ∈ (m.insertAll attributes).toList) : a ∈ m.toList ∨ a ∈ attributes := by
  induction attributes generalizing m with
  | nil => exact .inl h
  | cons b rest ih =>
    rcases ih (m := m.insert b) h with h | h
    · rcases Attribute.mem_put h with rfl | h
      · exact .inr List.mem_cons_self
      · exact .inl h
    · exact .inr (List.mem_cons_of_mem _ h)

namespace KeyFilter

/-- A filter keeps attributes that it was given. -/
theorem mem_apply {filter : KeyFilter} {attributes : List Attribute} {a : Attribute}
    (h : a ∈ (filter.apply attributes).toList) : a ∈ attributes := by
  have hofList {a : Attribute} (h : a ∈ (AttributeMap.ofList attributes).toList) :
      a ∈ attributes := by
    simpa [AttributeMap.empty, default] using AttributeMap.mem_insertAll h
  unfold apply at h
  split at h
  · exact hofList h
  · exact hofList (List.mem_filter.1 h).1

/-- The sets that a filter makes have a digest. -/
theorem digested_apply (filter : KeyFilter) (attributes : List Attribute) :
    (filter.apply attributes).digested = true := by
  unfold apply
  split <;> rfl

end KeyFilter

end Metering
