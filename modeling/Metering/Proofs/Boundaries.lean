import Metering.Proofs.Quantity
import Metering.Tally
import Mathlib.Data.List.Chain

/-!
# Buckets between boundaries

Boundaries without fault are finite and strictly increase, so a number that is not NaN lies in
exactly one of the buckets between them (`InBucket`), and bisection finds that one. Of a test that
holds up to some index and from there on fails, `bisect` finds the first index at which it fails; it
never leaves the indices that it was given, whatever the test.
-/

namespace Metering

/-! ## Bisection -/

/-- The answer of a bisection is one of the indices that it was given, or the one after them. -/
theorem bisect_bounds (p : Nat → Bool) (first size : Nat) (hsize : 0 < size) :
    first ≤ bisect p first size ∧ bisect p first size ≤ first + size := by
  fun_induction bisect p first size with
  | case1 first size hle hp => omega
  | case2 first size hle hp => omega
  | case3 first size hle half ih =>
    have hhalf : half = size / 2 := rfl
    have hbounds := ih (by omega)
    rw [dite_eq_ite] at hbounds
    by_cases hprobe : p (first + half) = true
    · rw [if_pos hprobe] at hbounds ⊢
      omega
    · rw [if_neg hprobe] at hbounds ⊢
      omega

/-- A bisection finds where a test that holds first and fails then begins to fail. -/
theorem bisect_spec {p : Nat → Bool} (hp : ∀ i j, i ≤ j → p j = true → p i = true)
    (first size : Nat) (hsize : 0 < size) :
    (∀ i, first ≤ i → i < bisect p first size → p i = true) ∧
      ∀ i, bisect p first size ≤ i → i < first + size → p i = false := by
  fun_induction bisect p first size with
  | case1 first size hle hfirst =>
    refine ⟨fun i hi hlt => ?_, fun i hi hlt => ?_⟩
    · rwa [show i = first by omega]
    · omega
  | case2 first size hle hfirst =>
    refine ⟨fun i hi hlt => ?_, fun i hi hlt => ?_⟩
    · omega
    · rw [show i = first by omega]
      exact Bool.not_eq_true _ ▸ hfirst
  | case3 first size hle half ih =>
    have hhalf : half = size / 2 := rfl
    rw [dite_eq_ite] at ih
    obtain ⟨hbelow, habove⟩ := ih (by omega)
    by_cases hprobe : p (first + half) = true
    · -- the lower half passes as its end does, and the search went on in the upper half
      rw [if_pos hprobe] at hbelow habove ⊢
      refine ⟨fun i hi hlt => ?_, fun i hi hlt => habove i hi (by omega)⟩
      by_cases hlow : i < first + half
      · exact hp i (first + half) (by omega) hprobe
      · exact hbelow i (by omega) hlt
    · -- the upper half fails as its start does, and the search went on in the lower half
      rw [if_neg hprobe] at hbelow habove ⊢
      refine ⟨hbelow, fun i hi hlt => ?_⟩
      by_cases hlow : i < first + (size - half)
      · exact habove i hi hlow
      · exact Bool.eq_false_iff.2 fun hpi => hprobe (hp (first + half) i (by omega) hpi)

/-! ## Well-formed boundaries -/

namespace Binary64

/-- A finite number is a number. -/
theorem isNaN_of_isFinite {x : Binary64} (h : x.isFinite = true) : x.isNaN = false := by
  simp only [isFinite, isNaN, decide_eq_true_eq, decide_eq_false_iff_not] at h ⊢
  omega

/-- Numbers other than NaN are ordered by their ranks. -/
theorem numLe_iff {x y : Binary64} (hx : x.isNaN = false) (hy : y.isNaN = false) :
    x.numLe y = true ↔ x.rank ≤ y.rank := by
  simp [numLe, hx, hy]

/-- Numbers are strictly ordered by their ranks. -/
theorem numLt_iff {x y : Binary64} (hx : x.isNaN = false) (hy : y.isNaN = false) :
    x.numLt y = true ↔ x.rank < y.rank := by
  simp [numLt, hx, hy]

/-- The word of a number that is put together from its sign and its magnitude. -/
theorem toNat_bits_ofMagnitude (negative : Bool) {m : Nat} (hm : m < signPlace) :
    (ofMagnitude negative m).bits.toNat = if negative then signPlace + m else m := by
  have hsign : signPlace = 0x8000000000000000 := rfl
  rw [ofMagnitude, UInt64.toNat_ofNat']
  refine Nat.mod_eq_of_lt ?_
  split <;> omega

/-- The magnitude can be read off an assembled word. -/
theorem magnitude_ofMagnitude (negative : Bool) {m : Nat} (hm : m < signPlace) :
    (ofMagnitude negative m).magnitude = m := by
  have hsign : signPlace = 0x8000000000000000 := rfl
  rw [magnitude, toNat_bits_ofMagnitude negative hm, hsign]
  split <;> omega

end Binary64

namespace BoundaryFault

/-- A list stalls nowhere if each number lies above the one before it. -/
theorem stalls_eq_false {values : List Binary64} :
    stalls values = false ↔ values.IsChain fun a b => b.numLe a = false := by
  induction values with
  | nil => simp [stalls]
  | cons a rest ih =>
    cases rest with
    | nil => simp [stalls]
    | cons b rest => rw [stalls, Bool.or_eq_false_iff, ih, List.isChain_cons_cons]

/-- There is no fault exactly if all values are finite and none stalls. -/
theorem find?_eq_none {values : List Binary64} :
    find? values = none ↔ (∀ b ∈ values, b.isFinite = true) ∧ stalls values = false := by
  have hany : values.any (fun b => !b.isFinite) = false ↔ ∀ b ∈ values, b.isFinite = true := by
    simp
  rw [← hany, find?]
  cases values.any fun b => !b.isFinite <;> cases stalls values <;> simp

end BoundaryFault

namespace Boundaries

variable (boundaries : Boundaries)

/-- All boundaries are finite. -/
theorem isFinite {b : Binary64} (hb : b ∈ boundaries.values) : b.isFinite = true :=
  (BoundaryFault.find?_eq_none.1 boundaries.faultless).1 b hb

/-- None of them is a NaN. -/
theorem isNaN {b : Binary64} (hb : b ∈ boundaries.values) : b.isNaN = false :=
  Binary64.isNaN_of_isFinite (boundaries.isFinite hb)

/-- Boundaries strictly increase. -/
theorem increasing : boundaries.values.Pairwise fun a b => a.rank < b.rank := by
  have hstalls := (BoundaryFault.find?_eq_none.1 boundaries.faultless).2
  have hchain : boundaries.values.IsChain fun a b => a.rank < b.rank := by
    refine (BoundaryFault.stalls_eq_false.1 hstalls).imp_of_mem_imp fun a b ha hb hab => ?_
    rw [← Bool.not_eq_true, Binary64.numLe_iff (boundaries.isNaN hb) (boundaries.isNaN ha)] at hab
    omega
  exact hchain.pairwise

/-- The boundaries made from a list have its values. -/
theorem values_of_ofList {values : List Binary64} {boundaries : Boundaries}
    (h : ofList values = .ok boundaries) : boundaries.values = values := by
  unfold ofList at h
  split at h
  · cases h
    rfl
  · cases h

/-- A boundary comes after those that it lies above. -/
theorem rank_le {i j : Nat} (hij : i ≤ j) {a b : Binary64} (ha : boundaries.values[i]? = some a)
    (hb : boundaries.values[j]? = some b) : a.rank ≤ b.rank := by
  obtain ⟨hi, rfl⟩ := List.getElem?_eq_some_iff.1 ha
  obtain ⟨hj, rfl⟩ := List.getElem?_eq_some_iff.1 hb
  rcases Nat.lt_or_eq_of_le hij with hlt | rfl
  · exact Int.le_of_lt (List.pairwise_iff_getElem.1 boundaries.increasing i j hi hj hlt)
  · exact Int.le_refl _

end Boundaries

/-! ## The bucket of a number -/

/-- The number lies in the bucket of the index: at or above the boundary before it, if there is one,
and below the boundary after it, if there is one. -/
structure InBucket (boundaries : List Binary64) (x : Binary64) (i : Nat) : Prop where
  index_le : i ≤ boundaries.length
  lower : ∀ j b, j + 1 = i → boundaries[j]? = some b → b.numLe x = true
  upper : ∀ b, boundaries[i]? = some b → x.numLt b = true

/-- Every number finds a bucket, also a NaN. -/
theorem bucketOf_le (boundaries : List Binary64) (x : Binary64) :
    bucketOf boundaries x ≤ boundaries.length := by
  unfold bucketOf
  split
  · exact Nat.zero_le _
  · rename_i hempty
    have hpos : 0 < boundaries.length := by
      rw [List.length_pos_iff]
      simpa using hempty
    have hbounds := bisect_bounds (fun i => (boundaries[i]?).any fun b => b.numLe x) 0 _ hpos
    omega

namespace Boundaries

variable (boundaries : Boundaries) {x : Binary64}

/-- Whether a boundary lies at or below a number, up to some boundary and from there on not. -/
theorem isBelow_of_le (hx : x.isNaN = false) {i j : Nat} (hij : i ≤ j)
    (hj : (boundaries.values[j]?).any (fun b => b.numLe x) = true) :
    (boundaries.values[i]?).any (fun b => b.numLe x) = true := by
  obtain ⟨b, hb, hle⟩ := (Option.any_eq_true _ _).1 hj
  obtain ⟨hlt, -⟩ := List.getElem?_eq_some_iff.1 hb
  have ha : boundaries.values[i]? = some boundaries.values[i] := List.getElem?_eq_getElem (by omega)
  have hab := boundaries.rank_le hij ha hb
  rw [Binary64.numLe_iff (boundaries.isNaN (List.mem_of_getElem? hb)) hx] at hle
  rw [ha]
  show boundaries.values[i].numLe x = true
  rw [Binary64.numLe_iff (boundaries.isNaN (List.mem_of_getElem? ha)) hx]
  omega

/-- Bisection finds the bucket that a number lies in. -/
theorem inBucket_bucketOf (hx : x.isNaN = false) :
    InBucket boundaries.values x (bucketOf boundaries.values x) := by
  have hle := bucketOf_le boundaries.values x
  unfold bucketOf at hle ⊢
  split
  · rename_i hempty
    have hnil : boundaries.values = [] := by simpa using hempty
    exact ⟨Nat.zero_le _, fun j b hj => absurd hj (by omega), fun b hb => by simp [hnil] at hb⟩
  · rename_i hempty
    rw [if_neg hempty] at hle
    have hpos : 0 < boundaries.values.length := by
      rw [List.length_pos_iff]
      simpa using hempty
    -- what the bisection finds: the boundaries before it are at most `x`, those from it on are not
    obtain ⟨hbelow, habove⟩ := bisect_spec
      (p := fun i => (boundaries.values[i]?).any fun b => b.numLe x)
      (fun i j hij hj => boundaries.isBelow_of_le hx hij hj) 0 boundaries.values.length hpos
    refine ⟨hle, fun j b hj hb => ?_, fun b hb => ?_⟩
    · have hlow := hbelow j (Nat.zero_le j) (by omega)
      simpa [hb] using hlow
    · obtain ⟨hlt, -⟩ := List.getElem?_eq_some_iff.1 hb
      have hhigh := habove _ (Nat.le_refl _) (by omega)
      have hnot : ¬ b.numLe x = true := by simpa [hb] using hhigh
      have hnan := boundaries.isNaN (List.mem_of_getElem? hb)
      rw [Binary64.numLe_iff hnan hx] at hnot
      rw [Binary64.numLt_iff hx hnan]
      omega

/-- No number lies in two buckets. -/
theorem inBucket_unique (hx : x.isNaN = false) {i j : Nat} (hi : InBucket boundaries.values x i)
    (hj : InBucket boundaries.values x j) : i = j := by
  -- of two buckets, the boundary that ends the first lies at or below the one that starts the second
  have hnot : ∀ {i j}, InBucket boundaries.values x i → InBucket boundaries.values x j → ¬ i < j := by
    intro i j hi hj hlt
    have hjle := hj.index_le
    have ha : boundaries.values[i]? = some boundaries.values[i] :=
      List.getElem?_eq_getElem (by omega)
    have hb : boundaries.values[j - 1]? = some boundaries.values[j - 1] :=
      List.getElem?_eq_getElem (by omega)
    have hab := boundaries.rank_le (by omega) ha hb
    have hupper := hi.upper _ ha
    have hlower := hj.lower (j - 1) _ (by omega) hb
    rw [Binary64.numLt_iff hx (boundaries.isNaN (List.mem_of_getElem? ha))] at hupper
    rw [Binary64.numLe_iff (boundaries.isNaN (List.mem_of_getElem? hb)) hx] at hlower
    omega
  exact Nat.le_antisymm (Nat.not_lt.1 (hnot hj hi)) (Nat.not_lt.1 (hnot hi hj))

/-- **The bucket of a number.** It is the only one that the number lies in. -/
theorem inBucket_iff (hx : x.isNaN = false) {i : Nat} :
    InBucket boundaries.values x i ↔ i = bucketOf boundaries.values x := by
  constructor
  · exact fun hi => boundaries.inBucket_unique hx hi (boundaries.inBucket_bucketOf hx)
  · rintro rfl
    exact boundaries.inBucket_bucketOf hx

end Boundaries

/-! ## Measurements as floating-point numbers -/

namespace Quantity

/-- Quantities of which only those that are no numbers are NaN as floating-point numbers. -/
class Numeric (T : Type) [Quantity T] : Prop where
  isNaN_toBinary64 {v : T} : isNaN v = false → (toBinary64 v).isNaN = false

/-- Rounding never yields a NaN. -/
theorem isNaN_ofUnits (n : Int) : (Binary64.ofUnits n).isNaN = false := by
  have hround : Binary64.roundUnits n.natAbs ≤ Binary64.infiniteMagnitude := Nat.min_le_left _ _
  have hinfinite : Binary64.infiniteMagnitude < Binary64.signPlace := by decide
  rw [Binary64.isNaN, Binary64.ofUnits, Binary64.magnitude_ofMagnitude _ (by omega)]
  exact decide_eq_false (Nat.not_lt.2 hround)

instance : Numeric Int64 := ⟨fun _ => isNaN_ofUnits _⟩

instance : Numeric UInt64 := ⟨fun _ => isNaN_ofUnits _⟩

instance : Numeric Binary64 := ⟨id⟩

end Quantity

end Metering
