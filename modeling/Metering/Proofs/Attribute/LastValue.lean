import Metering.Attribute.Set

/-!
# The last value of a key

Of several values that are recorded for a key the last one counts (`lastValue`). An attribute map
holds just those, and what a filter leaves of it are those of the allowed keys (`lastValue_apply`).
-/

namespace Metering

/-- The last value for a key among attributes. -/
def lastValue (attributes : List Attribute) (key : String) : Option Value :=
  (attributes.reverse.find? (·.key == key)).map (·.value)

/-- The last value comes from the second list, if this has the key. -/
theorem lastValue_append (l m : List Attribute) (key : String) :
    lastValue (l ++ m) key = (lastValue m key).or (lastValue l key) := by
  rw [lastValue, List.reverse_append, List.find?_append, Option.map_or]
  rfl

/-- The only member has the last value of its own key. -/
theorem lastValue_singleton (a : Attribute) (key : String) :
    lastValue [a] key = if a.key = key then some a.value else none := by
  by_cases h : a.key = key <;> simp [lastValue, h]

/-- The first member has the last value of its key only if no other one has the key. -/
theorem lastValue_cons (a : Attribute) (l : List Attribute) (key : String) :
    lastValue (a :: l) key =
      (lastValue l key).or (if a.key = key then some a.value else none) := by
  rw [← List.singleton_append, lastValue_append, lastValue_singleton]

/-- A key that no attribute has has no last value. -/
theorem lastValue_eq_none {l : List Attribute} {key : String} (h : ∀ a ∈ l, a.key ≠ key) :
    lastValue l key = none := by
  have hnone : l.reverse.find? (·.key == key) = none :=
    List.find?_eq_none.2 fun a ha hkey => h a (List.mem_reverse.1 ha) (by simpa using hkey)
  rw [lastValue, hnone, Option.map_none]

/-- A key that all attributes are beyond has no last value. -/
theorem lastValue_eq_none_of_lt {l : List Attribute} {key : String} (h : ∀ a ∈ l, key < a.key) :
    lastValue l key = none :=
  lastValue_eq_none fun a ha heq => String.lt_irrefl _ (heq ▸ h a ha)

/-- A key has a last value if an attribute has the key. -/
theorem isSome_lastValue (l : List Attribute) (key : String) :
    (lastValue l key).isSome = l.any (·.key == key) := by
  rw [lastValue, Option.isSome_map, ← List.any_reverse, Bool.eq_iff_iff, List.find?_isSome,
    List.any_eq_true]

/-- Attributes picked by their keys have the last values of those keys. -/
theorem lastValue_filter (p : String → Bool) (l : List Attribute) (key : String) :
    lastValue (l.filter fun a => p a.key) key = if p key then lastValue l key else none := by
  induction l with
  | nil => simp [lastValue]
  | cons a rest ih =>
    rw [List.filter_cons]
    by_cases hkey : a.key = key
    · subst hkey
      cases hp : p a.key <;> simp [lastValue_cons, ih, hp]
    · cases hp : p a.key <;> simp [lastValue_cons, ih, hkey]

/-! ## Attribute maps -/

/-- What an increasing list of attributes holds once an attribute is put into it. -/
theorem Attribute.KeysIncrease.lastValue_put {l : List Attribute} (h : KeysIncrease l)
    (a : Attribute) (key : String) :
    lastValue (a.put l) key = if a.key = key then some a.value else lastValue l key := by
  induction l with
  | nil => exact lastValue_singleton a key
  | cons b rest ih =>
    obtain ⟨hb, hrest⟩ := List.pairwise_cons.1 h
    rw [Attribute.put]
    by_cases hlt : a.key < b.key
    · -- the keys of the list are beyond that of the attribute
      rw [if_pos hlt, lastValue_cons]
      by_cases hkey : a.key = key
      · have hnone : lastValue (b :: rest) a.key = none := lastValue_eq_none_of_lt
          (List.forall_mem_cons.2 ⟨hlt, fun c hc => String.lt_trans hlt (hb c hc)⟩)
        subst hkey
        simp [hnone]
      · simp [hkey]
    · rw [if_neg hlt]
      by_cases heq : a.key = b.key
      · rw [if_pos heq, lastValue_cons, lastValue_cons]
        by_cases hkey : a.key = key
        · have hnone : lastValue rest a.key = none :=
            lastValue_eq_none_of_lt fun c hc => heq ▸ hb c hc
          subst hkey
          simp [hnone]
        · rw [if_neg hkey, if_neg hkey, if_neg (heq ▸ hkey)]
      · rw [if_neg heq, lastValue_cons, ih hrest, lastValue_cons]
        by_cases hkey : a.key = key
        · simp [hkey]
        · simp [hkey]

/-- A map that is given attributes one after another holds the last value of each key. -/
theorem AttributeMap.lastValue_insertAll (m : AttributeMap) (attributes : List Attribute)
    (key : String) :
    lastValue (m.insertAll attributes).toList key =
      (lastValue attributes key).or (lastValue m.toList key) := by
  induction attributes generalizing m with
  | nil => rfl
  | cons a rest ih =>
    have hinsert : lastValue (m.insert a).toList key =
        if a.key = key then some a.value else lastValue m.toList key := m.increasing.lastValue_put a key
    refine (ih (m.insert a)).trans ?_
    rw [hinsert, lastValue_cons, Option.or_assoc]
    by_cases hkey : a.key = key <;> simp [hkey]

/-- A map that is built from a list has the last values of the list. -/
theorem AttributeMap.lastValue_ofList (attributes : List Attribute) (key : String) :
    lastValue (AttributeMap.ofList attributes).toList key = lastValue attributes key :=
  (lastValue_insertAll .empty attributes key).trans (Option.or_none)

/-- The set of a recording holds the last value of each key that the filter allows. -/
theorem KeyFilter.lastValue_apply (filter : KeyFilter) (attributes : List Attribute)
    (a : Attribute) :
    lastValue (filter.apply attributes).toList a.key =
      if filter.allows a then lastValue attributes a.key else none := by
  obtain ⟨allowed⟩ := filter
  cases allowed with
  | none => exact AttributeMap.lastValue_ofList attributes a.key
  | some keys =>
    refine (lastValue_filter keys.contains (AttributeMap.ofList attributes).toList a.key).trans ?_
    rw [AttributeMap.lastValue_ofList]
    rfl

/-- Nothing that was recorded is lost: the last value of a key is in the set of the recording or, if the
set lacks the key, among the attributes that are left. -/
theorem KeyFilter.lastValue_eq_or (filter : KeyFilter) (attributes : List Attribute)
    (key : String) :
    lastValue attributes key =
      (lastValue (filter.apply attributes).toList key).or
        (lastValue (attributes.filter fun a => !(filter.apply attributes).contains a.key) key) := by
  have hcontains : (filter.apply attributes).contains key =
      (lastValue (filter.apply attributes).toList key).isSome := (isSome_lastValue _ key).symm
  rw [lastValue_filter (fun key => !(filter.apply attributes).contains key), hcontains,
    filter.lastValue_apply attributes ⟨key, default⟩]
  split
  · cases lastValue attributes key <;> rfl
  · rfl

end Metering
