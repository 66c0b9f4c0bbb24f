import Metering.Proofs.Attribute.Identity
import Metering.Proofs.Attribute.Reordering

/-!
# Sets that equal themselves

Every set is the blank one or is built from a list of attributes (`AttributeSet.eq_blank_or_ofList`).
Of the laws of an equality on which tables could rest, sameness of sets misses one: a set equals
itself exactly if no list of floats among its values holds a NaN (`AttributeSet.self_beq_iff`). A plain
NaN does no harm, since plain floats are compared by their bits.
-/

namespace Metering

/-- A list is related to itself, element by element, exactly if its elements are. -/
theorem isEqv_self_iff {α : Type} {r : α → α → Bool} {l : List α} :
    l.isEqv l r = true ↔ ∀ a ∈ l, r a a = true := by
  refine ⟨fun h => ?_, isEqv_self⟩
  induction l with
  | nil => exact fun a ha => absurd ha List.not_mem_nil
  | cons b rest ih =>
    rw [List.isEqv_cons_cons, Bool.and_eq_true] at h
    exact List.forall_mem_cons.2 ⟨h.1, ih h.2⟩

/-- Only a NaN is not equal to itself as a number. -/
theorem Binary64.self_numEq_iff {x : Binary64} : x.numEq x = true ↔ x.isNaN = false := by
  simp [Binary64.numEq]

theorem Value.self_sameMember_iff {v : Value} : v.sameMember v = true ↔ v.ListsNumbers := by
  refine ⟨fun h => ?_, self_sameMember⟩
  cases v with
  | floats xs =>
    have hself : xs.isEqv xs Binary64.numEq = true := h
    exact fun x hx => Binary64.self_numEq_iff.1 (isEqv_self_iff.1 hself x hx)
  | bool _ | int _ | float _ | text _ | bools _ | ints _ | texts _ => trivial

namespace AttributeSet

theorem self_beq_iff {set : AttributeSet} :
    (set == set) = true ↔ ∀ a ∈ set.toList, a.value.ListsNumbers := by
  refine ⟨fun h a ha => ?_, self_beq⟩
  have hmember := isEqv_self_iff.1 (Bool.and_eq_true_iff.1 h).1 a ha
  exact Value.self_sameMember_iff.1 (Bool.and_eq_true_iff.1 hmember).2

/-! ## Where sets come from -/

/-- There are no sets but the blank one and those of lists of attributes. -/
theorem eq_blank_or_ofList (set : AttributeSet) : set = .blank ∨ set = .ofList set.toList := by
  by_cases hblank : set = .blank
  · exact .inl hblank
  · have hmap := AttributeMap.ofList_toList set.toAttributeMap
    exact .inr (eq_of_toList (congrArg AttributeMap.toList hmap.symm) (digested_of_ne_blank hblank))

/-- A set built from attributes equals itself if the last value of every key lists numbers. What was
overwritten does not count. -/
theorem self_beq_ofList {attributes : List Attribute} :
    (ofList attributes == ofList attributes) = true ↔
      ∀ key, ∀ v ∈ lastValue attributes key, v.ListsNumbers := by
  have hmem (a : Attribute) : a ∈ (ofList attributes).toList ↔
      lastValue attributes a.key = some a.value :=
    ((ofList attributes).increasing.mem_iff a).trans
      (by rw [← AttributeMap.lastValue_ofList attributes a.key]; rfl)
  rw [self_beq_iff]
  exact ⟨fun h key v hv => h ⟨key, v⟩ ((hmem _).2 hv),
    fun h a ha => h a.key a.value ((hmem a).1 ha)⟩

/-- Attributes may be left out of a set that equals itself. -/
theorem self_beq_retain {set : AttributeSet} (h : (set == set) = true) (p : Attribute → Bool) :
    (set.retain p == set.retain p) = true :=
  self_beq fun a ha => self_beq_iff.1 h a (List.mem_filter.1 ha).1

/-! ## Laws of equality -/

/-- Sets that are the same have the same keys. This is seen from the members alone, also where digests
collide. -/
theorem keys_eq_of_beq {a b : AttributeSet} (h : (a == b) = true) :
    a.toList.map (·.key) = b.toList.map (·.key) := by
  have hmembers := (Bool.and_eq_true_iff.1 h).1
  generalize a.toList = l at hmembers ⊢
  generalize b.toList = m at hmembers ⊢
  -- on both lists at once, since sameness compares them member by member
  induction l generalizing m with
  | nil =>
    cases m with
    | nil => rfl
    | cons y ys => exact absurd hmembers Bool.false_ne_true
  | cons x xs ih =>
    cases m with
    | nil => exact absurd hmembers Bool.false_ne_true
    | cons y ys =>
      rw [List.isEqv_cons_cons, Bool.and_eq_true] at hmembers
      have hkey : x.key = y.key := eq_of_beq (Bool.and_eq_true_iff.1 hmembers.1).1
      rw [List.map_cons, List.map_cons, hkey, ih ys hmembers.2]

/-- **Sameness as an equality.** It is symmetric and transitive, the same sets have the same digest and
the same keys, and it is reflexive on just those sets that have no NaN inside a list of floats. -/
theorem beq_is_equality_up_to_listed_nan (a b c : AttributeSet) :
    ((a == a) = true ↔ ∀ x ∈ a.toList, x.value.ListsNumbers) ∧
    ((a == b) = true → (b == a) = true) ∧
    ((a == b) = true → (b == c) = true → (a == c) = true) ∧
    ((a == b) = true → a.digest = b.digest ∧ a.toList.map (·.key) = b.toList.map (·.key)) := by
  refine ⟨self_beq_iff, BEq.symm, BEq.trans, fun h => ?_⟩
  have hdigest : a.digest = b.digest := eq_of_beq (Bool.and_eq_true_iff.1 h).2
  exact ⟨hdigest, keys_eq_of_beq h⟩

/-- A plain NaN does no harm, and neither does the order in which attributes are given. -/
theorem beq_is_equality_at_plain_nan :
    let a := ofList [⟨"a", .float .nan⟩, ⟨"b", .floats [.zero, .infinity]⟩]
    let b := ofList [⟨"b", .floats [.zero, .infinity]⟩, ⟨"a", .bool true⟩, ⟨"a", .float .nan⟩]
    (a == a) = true ∧ (b == a) = true ∧ (b == b) = true ∧
      a.digest = b.digest ∧ a.toList.map (·.key) = b.toList.map (·.key) := by
  intro a b
  have hab : (a == b) = true := by decide +kernel
  obtain ⟨hrefl, hsymm, -, hkeys⟩ := beq_is_equality_up_to_listed_nan a b a
  obtain ⟨-, -, htrans, -⟩ := beq_is_equality_up_to_listed_nan b a b
  have hba : (b == a) = true := hsymm hab
  exact ⟨hrefl.2 (by decide), hba, htrans hba hab, hkeys hab⟩

/-- A NaN inside a list of floats makes a set differ from itself. -/
theorem listed_nan_differs_from_itself :
    let set := ofList [⟨"a", .floats [.nan]⟩]
    (set == set) = false := by
  decide

end AttributeSet

end Metering
