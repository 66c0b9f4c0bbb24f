import Metering.Proofs.Attribute.Equality
import Metering.Proofs.Attribute.LastValue
import Mathlib.Data.List.Nodup
import Mathlib.Data.List.Pairwise

/-!
# Lists of attributes with the same set

An increasing list of attributes is known by its last values (`Attribute.KeysIncrease.ext`), so the
set of a recording depends only on the last value of each key. It is the same when attributes of
different keys change places (`KeyFilter.apply_of_reordered`), and when the keys that an allow-list
leaves out are left out by the recorder beforehand (`KeyFilter.apply_eq_ofList_filter`). -/

namespace Metering

/-! ## Increasing lists -/

namespace Attribute

/-- A list whose keys increase has no member twice. -/
theorem KeysIncrease.nodup {l : List Attribute} (h : KeysIncrease l) : l.Nodup := by
  refine List.Pairwise.imp (fun {a b} hlt => ?_) h
  rintro rfl
  exact String.lt_irrefl _ hlt

/-- The members of an increasing list are the last values of their keys. -/
theorem KeysIncrease.mem_iff {l : List Attribute} (h : KeysIncrease l) (a : Attribute) :
    a ∈ l ↔ lastValue l a.key = some a.value := by
  induction l with
  | nil => simp [lastValue]
  | cons b rest ih =>
    obtain ⟨hb, hrest⟩ := List.pairwise_cons.1 h
    rw [List.mem_cons, ih hrest, lastValue_cons]
    by_cases hkey : b.key = a.key
    · -- no later attribute has the key
      have hnone : lastValue rest a.key = none :=
        lastValue_eq_none_of_lt fun c hc => hkey ▸ hb c hc
      have hab : a = b ↔ b.value = a.value := by
        refine ⟨fun heq => heq ▸ rfl, fun hvalue => ?_⟩
        obtain ⟨key, value⟩ := a
        obtain ⟨key', value'⟩ := b
        exact congrArg₂ Attribute.mk hkey.symm hvalue.symm
      simp [hnone, hkey, hab]
    · have hab : a ≠ b := fun heq => hkey (heq ▸ rfl)
      simp [hkey, hab]

/-- An increasing list is known by its last values. -/
theorem KeysIncrease.ext {l m : List Attribute} (hl : KeysIncrease l) (hm : KeysIncrease m)
    (h : ∀ key, lastValue l key = lastValue m key) : l = m := by
  have hperm : l.Perm m := (List.perm_ext_iff_of_nodup hl.nodup hm.nodup).2 fun a => by
    rw [hl.mem_iff, hm.mem_iff, h]
  exact hperm.eq_of_pairwise
    (fun a b _ _ hab hba => absurd (String.lt_trans hab hba) (String.lt_irrefl _)) hl hm

/-! ## Changing places -/

/-- The attributes of each key are the same, in the same order. -/
def Reordered (l m : List Attribute) : Prop :=
  ∀ key, l.filter (·.key == key) = m.filter (·.key == key)

/-- A list is a reordering of itself. -/
theorem Reordered.refl (l : List Attribute) : Reordered l l := fun _ => rfl

/-- Attributes with distinct keys may change places. -/
theorem Reordered.of_perm {l m : List Attribute} (h : l.Perm m) (hkeys : (l.map (·.key)).Nodup) :
    Reordered l m := by
  intro key
  -- there is at most one attribute of a key, so there is nothing to order
  have hone : (l.filter (·.key == key)).length ≤ 1 := by
    have hnodup : ((l.filter (·.key == key)).map (·.key)).Nodup :=
      hkeys.sublist (List.filter_sublist.map _)
    have hsame : (l.filter (·.key == key)).map (·.key) =
        List.replicate (l.filter (·.key == key)).length key := by
      refine List.eq_replicate_iff.2 ⟨List.length_map .., fun k hk => ?_⟩
      obtain ⟨a, ha, rfl⟩ := List.mem_map.1 hk
      exact beq_iff_eq.1 (List.mem_filter.1 ha).2
    rw [hsame] at hnodup
    exact List.nodup_replicate.1 hnodup
  have hperm := h.filter (·.key == key)
  cases hfilter : l.filter (·.key == key) with
  | nil =>
    rw [hfilter] at hperm
    exact hperm.nil_eq
  | cons a rest =>
    rw [hfilter, List.length_cons] at hone
    have hrest : rest = [] := List.length_eq_zero_iff.1 (by omega)
    rw [hfilter, hrest] at hperm
    rw [hrest]
    exact (List.perm_singleton.1 hperm.symm).symm

/-- Reorderings have the same last values. -/
theorem Reordered.lastValue_eq {l m : List Attribute} (h : Reordered l m) (key : String) :
    lastValue l key = lastValue m key := by
  have hfind (l : List Attribute) : l.reverse.find? (·.key == key) =
      (l.filter (·.key == key)).getLast? := by
    rw [← List.head?_filter, List.filter_reverse, List.head?_reverse]
  rw [lastValue, lastValue, hfind, hfind, h key]

end Attribute

/-! ## The set of a recording -/

/-- Maps with the same last values are the same. -/
theorem AttributeMap.ext_lastValue {m m' : AttributeMap}
    (h : ∀ key, lastValue m.toList key = lastValue m'.toList key) : m = m' := by
  obtain ⟨l, hl⟩ := m
  obtain ⟨l', hl'⟩ := m'
  cases hl.ext hl' h
  rfl

/-- A map is that of its own attributes. -/
theorem AttributeMap.ofList_toList (m : AttributeMap) : ofList m.toList = m :=
  ext_lastValue (lastValue_ofList m.toList)

/-- Lists with the same last values have the same set. -/
theorem AttributeSet.ofList_of_lastValue {l m : List Attribute}
    (h : ∀ key, lastValue l key = lastValue m key) : ofList l = ofList m := by
  refine congrArg ofMap (AttributeMap.ext_lastValue fun key => ?_)
  rw [AttributeMap.lastValue_ofList, AttributeMap.lastValue_ofList, h]

namespace KeyFilter

/-- The set of a recording depends on the last value of each key. -/
theorem apply_of_lastValue (filter : KeyFilter) {l m : List Attribute}
    (h : ∀ key, lastValue l key = lastValue m key) : filter.apply l = filter.apply m := by
  rw [apply, apply, AttributeSet.ofList_of_lastValue h]

/-- The set of a recording does not depend on the order of attributes with different keys. -/
theorem apply_of_reordered (filter : KeyFilter) {l m : List Attribute}
    (h : Attribute.Reordered l m) : filter.apply l = filter.apply m :=
  filter.apply_of_lastValue h.lastValue_eq

/-- **Filtering first.** An allow-list finds the set of the attributes whose keys it allows, however
often they were given. -/
theorem apply_eq_ofList_filter (keys : List String) (attributes : List Attribute) :
    (⟨some keys⟩ : KeyFilter).apply attributes =
      .ofList (attributes.filter fun a => keys.contains a.key) := by
  refine congrArg AttributeSet.ofMap (AttributeMap.ext_lastValue fun key => ?_)
  have hfilter := lastValue_filter keys.contains (AttributeMap.ofList attributes).toList key
  refine hfilter.trans ?_
  rw [AttributeMap.lastValue_ofList, AttributeMap.lastValue_ofList, lastValue_filter keys.contains]

end KeyFilter

end Metering
