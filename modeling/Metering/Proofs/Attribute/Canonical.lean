import Metering.Proofs.Attribute.Reflexivity
import Metering.Proofs.Boundaries
import Mathlib.Data.List.Forall2

/-!
# Sets as canonical forms

The set of a list of attributes has the last value of every key, and nothing else of the list matters
to it (`AttributeSet.canonical_form_of_last_values`). There is another way to come by its attributes:
go through the list from its end, pass over the keys that were seen before and sort what is left, by a
stable sort or another, by the keys (`Attribute.eq_of_perm_lastFirst`). Since the keys of a set
increase, a key can be looked for by bisection (`AttributeMap.isFound_iff`).
-/

namespace Metering

namespace Attribute

/-! ## From the last attribute to the first -/

/-- The attributes of a list with keys that have not been seen, the first one of each key. -/
def unseen (seen : List String) : List Attribute → List Attribute
  | [] => []
  | a :: rest => if a.key ∈ seen then unseen seen rest else a :: unseen (a.key :: seen) rest

/-- The last attribute of every key, the last one of all first. -/
def lastFirst (l : List Attribute) : List Attribute := unseen [] l.reverse

/-- What is found under a key is found in what is left after the keys that were seen, unless it is
one of these. -/
theorem find?_unseen (seen : List String) (l : List Attribute) (key : String) :
    (unseen seen l).find? (·.key == key) =
      if key ∈ seen then none else l.find? (·.key == key) := by
  induction l generalizing seen with
  | nil => simp [unseen]
  | cons a rest ih =>
    rw [unseen]
    -- `a` is skipped if its key was seen; if not, it is what is found under its key
    by_cases hseen : a.key ∈ seen
    · rw [if_pos hseen, ih]
      by_cases hkey : key ∈ seen
      · rw [if_pos hkey, if_pos hkey]
      · have hne : a.key ≠ key := fun heq => hkey (heq ▸ hseen)
        rw [if_neg hkey, if_neg hkey, List.find?_cons_of_neg (by simpa using hne)]
    · rw [if_neg hseen]
      by_cases heq : a.key = key
      · rw [List.find?_cons_of_pos (by simpa using heq), if_neg (heq ▸ hseen),
          List.find?_cons_of_pos (by simpa using heq)]
      · rw [List.find?_cons_of_neg (by simpa using heq), ih,
          List.find?_cons_of_neg (by simpa using heq)]
        simp [Ne.symm heq]

/-- Every key is left once. -/
theorem nodup_keys_unseen (seen : List String) (l : List Attribute) :
    ((unseen seen l).map (·.key)).Nodup := by
  induction l generalizing seen with
  | nil => exact List.nodup_nil
  | cons a rest ih =>
    rw [unseen]
    split
    · exact ih seen
    · refine List.nodup_cons.2 ⟨fun hmem => ?_, ih (a.key :: seen)⟩
      obtain ⟨b, hb, hkey⟩ := List.mem_map.1 hmem
      have hnone := find?_unseen (a.key :: seen) rest a.key
      rw [if_pos List.mem_cons_self] at hnone
      exact List.find?_eq_none.1 hnone b hb (by simpa using hkey)

/-- De-duplication leaves the last value of every key. -/
theorem lastValue_lastFirst (l : List Attribute) (key : String) :
    lastValue (lastFirst l) key = lastValue l key := by
  -- the keys are distinct, so that the first value of a key is its last one
  have hreverse := Reordered.of_perm (List.reverse_perm (lastFirst l)).symm
    (nodup_keys_unseen [] l.reverse)
  rw [hreverse.lastValue_eq, lastValue, List.reverse_reverse, lastFirst, find?_unseen,
    if_neg List.not_mem_nil, lastValue]

/-- Sorting what is left of a list gives the attributes of its map, by a stable sort or another. -/
theorem eq_of_perm_lastFirst {l m : List Attribute} (hperm : m.Perm (lastFirst l))
    (hsorted : m.Pairwise (·.key ≤ ·.key)) : m = (AttributeMap.ofList l).toList := by
  have hnodup : (m.map (·.key)).Nodup :=
    (hperm.map (·.key)).nodup_iff.2 (nodup_keys_unseen [] l.reverse)
  have hincreasing : KeysIncrease m := by
    refine (hsorted.and (List.pairwise_map.1 hnodup)).imp fun {a b} hab => ?_
    exact Decidable.byContradiction fun hnot =>
      hab.2 (String.le_antisymm hab.1 (String.not_lt.1 hnot))
  refine hincreasing.ext (AttributeMap.ofList l).increasing fun key => ?_
  rw [(Reordered.of_perm hperm hnodup).lastValue_eq, lastValue_lastFirst,
    AttributeMap.lastValue_ofList]

/-- The attributes of a map are those that are left of the list, in the order of their keys. -/
theorem perm_lastFirst (l : List Attribute) :
    (AttributeMap.ofList l).toList.Perm (lastFirst l) := by
  let le (a b : Attribute) : Bool := a.key ≤ b.key
  have hsorted : ((lastFirst l).mergeSort le).Pairwise (le · · = true) := by
    refine List.pairwise_mergeSort (fun a b c hab hbc => ?_) (fun a b => ?_) (lastFirst l)
    · exact decide_eq_true (String.le_trans (of_decide_eq_true hab) (of_decide_eq_true hbc))
    · simpa [le] using String.le_total a.key b.key
  have hperm := List.mergeSort_perm (lastFirst l) le
  rwa [eq_of_perm_lastFirst hperm (hsorted.imp of_decide_eq_true)] at hperm

/-! ## Looking for a key -/

/-- Keys increase with their places. -/
theorem KeysIncrease.key_le {l : List Attribute} (h : KeysIncrease l) {i j : Nat} (hij : i ≤ j)
    {a b : Attribute} (ha : l[i]? = some a) (hb : l[j]? = some b) : a.key ≤ b.key := by
  obtain ⟨hi, rfl⟩ := List.getElem?_eq_some_iff.1 ha
  obtain ⟨hj, rfl⟩ := List.getElem?_eq_some_iff.1 hb
  rcases Nat.lt_or_eq_of_le hij with hlt | rfl
  · exact String.not_lt.1 (String.lt_asymm (List.pairwise_iff_getElem.1 h i j hi hj hlt))
  · exact String.le_refl _

end Attribute

namespace AttributeMap

/-- Whether the attribute of an index does not stand beyond a key. -/
def reaches (m : AttributeMap) (key : String) (i : Nat) : Bool :=
  m.toList[i]?.any fun a => a.key ≤ key

/-- Look for a key where bisection ends, at the last attribute that does not stand beyond the key. -/
def isFound (m : AttributeMap) (key : String) : Bool :=
  let next := bisect (m.reaches key) 0 m.size
  (m.toList[next - 1]?).any (·.key == key)

/-- Attributes that do not stand beyond a key come before all that do. -/
theorem reaches_of_le (m : AttributeMap) (key : String) (i j : Nat) (hij : i ≤ j)
    (h : m.reaches key j = true) : m.reaches key i = true := by
  obtain ⟨b, hb, hbkey⟩ := (Option.any_eq_true _ _).1 h
  obtain ⟨hlength, -⟩ := List.getElem?_eq_some_iff.1 hb
  have hi := List.getElem?_eq_getElem (show i < m.toList.length by omega)
  rw [reaches, hi]
  exact decide_eq_true (String.le_trans (m.increasing.key_le hij hi hb) (of_decide_eq_true hbkey))

/-- The binary search finds a key exactly if the map has it. -/
theorem isFound_iff (m : AttributeMap) (key : String) :
    m.isFound key = true ↔ m.contains key = true := by
  rw [contains, List.any_eq_true]
  refine ⟨fun h => ?_, fun ⟨a, ha, hkey⟩ => ?_⟩
  · obtain ⟨a, ha, hkey⟩ := (Option.any_eq_true _ _).1 h
    exact ⟨a, List.mem_of_getElem? ha, hkey⟩
  · obtain ⟨j, hj⟩ := List.mem_iff_getElem?.1 ha
    obtain ⟨hsize, -⟩ := List.getElem?_eq_some_iff.1 hj
    have hkey : a.key = key := by simpa using hkey
    -- keys before the place found are at most `key`, those after it are greater
    obtain ⟨hbelow, habove⟩ := bisect_spec (m.reaches_of_le key) 0 m.size (by rw [size]; omega)
    obtain ⟨-, hlast⟩ := bisect_bounds (m.reaches key) 0 m.size (by rw [size]; omega)
    rw [isFound]
    generalize bisect (m.reaches key) 0 m.size = next at *
    have hnext : j < next := by
      by_contra hle
      have hbeyond := habove j (by omega) (by rw [size]; omega)
      simp [reaches, hj, hkey] at hbeyond
    obtain ⟨b, hb, hbkey⟩ := (Option.any_eq_true _ _).1 (hbelow (next - 1) (by omega) (by omega))
    have hle : key ≤ b.key := hkey ▸ m.increasing.key_le (show j ≤ next - 1 by omega) hj hb
    rw [hb]
    simpa using String.le_antisymm (of_decide_eq_true hbkey) hle

/-- A set has the keys of the list that it is built from. -/
theorem contains_ofList (l : List Attribute) (key : String) :
    (ofList l).contains key = true ↔ key ∈ l.map (·.key) := by
  rw [contains, ← isSome_lastValue, lastValue_ofList, isSome_lastValue, List.any_eq_true,
    List.mem_map]
  simp

end AttributeMap

/-! ## Values -/

namespace Value

/-- Values that a set takes for the same. Floats are compared by their bits, lists of floats by their
content and their text, and all else by `==`. -/
def Matches : Value → Value → Prop
  | .float x, .float y => x.bits = y.bits
  | .floats xs, .floats ys => (Value.floats xs == .floats ys) = true ∧
      listText (xs.map (Binary64.numeral .plain)) = listText (ys.map (Binary64.numeral .plain))
  | v, w => (v == w) = true

/-- Values that match are identical, and a list of floats with a NaN in it matches nothing. -/
theorem matches_iff {v w : Value} : v.Matches w ↔ v = w ∧ v.ListsNumbers := by
  constructor
  · intro h
    unfold Matches at h
    -- a float, by its bits; a list of floats, whose members must be numbers to equal themselves;
    -- the rest
    split at h
    · next x y => exact ⟨congrArg Value.float (congrArg Binary64.mk h), trivial⟩
    · next xs ys =>
      have hxs := isEqv_trans (r := Binary64.numEq) (fun _ _ _ => Binary64.numEq_trans) h.1
        (isEqv_symm (r := Binary64.numEq) (fun _ _ => Binary64.numEq_symm) h.1)
      exact ⟨congrArg Value.floats (eq_of_listText_eq h.1 h.2),
        fun x hx => Binary64.self_numEq_iff.1 (isEqv_self_iff.1 hxs x hx)⟩
    · next hfloat hfloats =>
      obtain rfl | ⟨x, y, rfl, rfl, -⟩ | ⟨xs, ys, rfl, rfl, -⟩ := beq_cases h
      · refine ⟨rfl, ?_⟩
        cases v with
        | floats xs => exact absurd rfl (hfloats xs xs rfl)
        | bool _ | int _ | float _ | text _ | bools _ | ints _ | texts _ => trivial
      · exact absurd rfl (hfloat x y rfl)
      · exact absurd rfl (hfloats xs ys rfl)
  · rintro ⟨rfl, hnumbers⟩
    have hself := self_sameMember hnumbers
    cases v with
    | float x => rfl
    | floats xs => exact ⟨hself, rfl⟩
    | bool _ | int _ | text _ | bools _ | ints _ | texts _ => exact hself

end Value

/-! ## Sets -/

/-- An increasing list has a value of a key once, if at all. -/
theorem Attribute.KeysIncrease.map_value_filter {l : List Attribute} (h : KeysIncrease l)
    (key : String) :
    (l.filter (·.key == key)).map (·.value) = (lastValue l key).toList := by
  induction l with
  | nil => rfl
  | cons a rest ih =>
    obtain ⟨ha, hrest⟩ := List.pairwise_cons.1 h
    rw [lastValue_cons]
    by_cases hkey : a.key = key
    · have hnone : ∀ b ∈ rest, b.key ≠ key := fun b hb heq =>
        String.lt_irrefl _ (heq ▸ hkey ▸ ha b hb)
      have hfilter : rest.filter (·.key == key) = [] :=
        List.filter_eq_nil_iff.2 fun b hb => by simpa using hnone b hb
      rw [List.filter_cons_of_pos (by simpa using hkey), hfilter, lastValue_eq_none hnone,
        if_pos hkey]
      rfl
    · rw [List.filter_cons_of_neg (by simpa using hkey), ih hrest, if_neg hkey, Option.or_none]

namespace AttributeSet

/-- Sets of lists are the same if the lists have the same keys with last values that match. -/
theorem ofList_beq_ofList_iff {l m : List Attribute} :
    (ofList l == ofList m) = true ↔
      ∀ key, Option.Rel Value.Matches (lastValue l key) (lastValue m key) := by
  refine ⟨fun h key => ?_, fun h => ?_⟩
  · have hsame : lastValue l key = lastValue m key := by
      rw [← AttributeMap.lastValue_ofList l, ← AttributeMap.lastValue_ofList m]
      exact congrArg (lastValue · key) (toList_eq_of_beq h)
    have hnumbers := self_beq_ofList.1 (BEq.trans h (BEq.symm h)) key
    rw [← hsame]
    cases hv : lastValue l key with
    | none => exact .none
    | some v => exact .some (Value.matches_iff.2 ⟨rfl, hnumbers v hv⟩)
  · have hsame (key : String) : lastValue l key = lastValue m key ∧
        ∀ v ∈ lastValue l key, v.ListsNumbers := by
      have hrel := h key
      generalize lastValue l key = v? at hrel ⊢
      generalize lastValue m key = w? at hrel ⊢
      cases hrel with
      | none => exact ⟨rfl, nofun⟩
      | some hvw =>
        obtain ⟨rfl, hnumbers⟩ := Value.matches_iff.1 hvw
        exact ⟨rfl, fun v hv => Option.some.inj hv ▸ hnumbers⟩
    rw [← ofList_of_lastValue fun key => (hsame key).1]
    exact self_beq_ofList.2 fun key => (hsame key).2

/-- The set has the last value of every key of a list, and nothing else. -/
structure IsCanonical (set : AttributeSet) (l : List Attribute) : Prop where
  increasing : set.toList.Pairwise (·.key < ·.key)
  once (key : String) :
    (set.toList.filter (·.key == key)).map (·.value) = (lastValue l key).toList
  contains (key : String) : set.contains key = true ↔ key ∈ l.map (·.key)
  /-- Keys can be looked for by bisection. -/
  isFound (key : String) : set.isFound key = true ↔ key ∈ l.map (·.key)
  /-- The attributes are those that are left of the list from its end, in their one sorted order. -/
  sorted (m : List Attribute) :
    m = set.toList ↔ m.Perm (Attribute.lastFirst l) ∧ m.Pairwise (·.key ≤ ·.key)

/-- A set is the canonical form of the list that it is built from. -/
theorem isCanonical_ofList (l : List Attribute) : (ofList l).IsCanonical l where
  increasing := (ofList l).increasing
  once key := by
    rw [(ofList l).increasing.map_value_filter key]
    exact congrArg Option.toList (AttributeMap.lastValue_ofList l key)
  contains := AttributeMap.contains_ofList l
  isFound key := (AttributeMap.isFound_iff _ key).trans (AttributeMap.contains_ofList l key)
  sorted m := by
    refine ⟨?_, fun ⟨hperm, hsorted⟩ => Attribute.eq_of_perm_lastFirst hperm hsorted⟩
    rintro rfl
    exact ⟨Attribute.perm_lastFirst l,
      (ofList l).increasing.imp fun hlt => String.not_lt.1 (String.lt_asymm hlt)⟩

/-- What is retained of a set is the set of the attributes that are kept. -/
theorem retain_eq_ofList (set : AttributeSet) (p : Attribute → Bool) :
    set.retain p = ofList (set.toList.filter p) :=
  congrArg ofMap (AttributeMap.ofList_toList (set.filter p)).symm

/-- **Sets as canonical forms.** The set of a list has the last value of each of its keys, each once
and in the order of the keys, and has no other keys. Two sets are the same exactly if their lists have
the same keys with last values that match, so attributes of different keys may change places. The set
of the attributes of a set is the same set, and what is retained of a set is the set of the attributes
that are kept. -/
theorem canonical_form_of_last_values (l m : List Attribute) (hl : ∀ a ∈ l, a.value.ListsNumbers)
    (p : Attribute → Bool) :
    (ofList l).IsCanonical l ∧
    ((ofList l == ofList m) = true ↔
      ∀ key, Option.Rel Value.Matches (lastValue l key) (lastValue m key)) ∧
    (Attribute.Reordered l m → (ofList l == ofList m) = true) ∧
    (ofList (ofList l).toList == ofList l) = true ∧
    ((ofList l).retain p == ofList ((ofList l).toList.filter p)) = true ∧
    ((ofList l).retain p).IsCanonical ((ofList l).toList.filter p) := by
  have hself : (ofList l == ofList l) = true :=
    self_beq fun a ha => hl a (@KeyFilter.mem_apply ⟨none⟩ l a ha)
  refine ⟨isCanonical_ofList l, ofList_beq_ofList_iff, fun hreordered => ?_, ?_, ?_, ?_⟩
  · rw [← ofList_of_lastValue hreordered.lastValue_eq]
    exact hself
  · have hset : ofList (ofList l).toList = ofList l :=
      congrArg ofMap (AttributeMap.ofList_toList (.ofList l))
    rw [hset]
    exact hself
  · rw [← retain_eq_ofList]
    exact self_beq_retain hself p
  · rw [retain_eq_ofList]
    exact isCanonical_ofList _

/-- Values that are given again between other keys, one key that begins another, and two lists that are
equal up to the sign of a zero. -/
theorem canonical_form_of_last_values_overwritten :
    let l : List Attribute := [⟨"ab", .int 1⟩, ⟨"b", .text "x"⟩, ⟨"a", .float .nan⟩,
      ⟨"ab", .bool true⟩, ⟨"b", .floats [.zero]⟩]
    let m : List Attribute := [⟨"b", .floats [.ofMagnitude true 0]⟩, ⟨"ab", .bool true⟩,
      ⟨"a", .float .nan⟩]
    let kept : List Attribute := [⟨"a", .float .nan⟩, ⟨"b", .floats [.zero]⟩]
    (∀ a ∈ l, a.value.ListsNumbers) ∧
    (ofList l).toList = [⟨"a", .float .nan⟩, ⟨"ab", .bool true⟩, ⟨"b", .floats [.zero]⟩] ∧
    (ofList l).IsCanonical l ∧
    (ofList (ofList l).toList == ofList l) = true ∧
    (ofList l == ofList m) = false ∧
    ¬ (∀ key, Option.Rel Value.Matches (lastValue l key) (lastValue m key)) ∧
    ((ofList l).retain (·.key != "ab") == ofList kept) = true ∧
    ((ofList l).retain (·.key != "ab")).IsCanonical kept := by
  intro l m kept
  have hl : ∀ a ∈ l, a.value.ListsNumbers := by decide
  have hkept : (ofList l).toList.filter (·.key != "ab") = kept := by decide
  obtain ⟨hset, hiff, -, hagain, hretain, hretained⟩ :=
    canonical_form_of_last_values l m hl (·.key != "ab")
  rw [hkept] at hretain hretained
  have hne : (ofList l == ofList m) = false := by decide +kernel
  exact ⟨hl, by decide, hset, hagain, hne, fun h => Bool.eq_false_iff.1 hne (hiff.2 h), hretain,
    hretained⟩

end AttributeSet

end Metering
