import Metering.Proofs.Boundaries
import Metering.Proofs.Handle.Uses

/-!
# The last recording of every bucket

A reservoir of buckets finds the bucket of a recording as a histogram does. After recordings, the cell
of each bucket has the last of them that was let through and fell into the bucket
(`Handle.sampler_recordAll_buckets`); no recording changes the cell of another bucket. So a drain
yields one exemplar for every bucket that has such a recording, in the order of the buckets
(`Handle.exemplars_eq_sampledBuckets`). -/

namespace Metering

open Quantity

/-! ## The last one of a kind -/

/-- The element is the last one of the list that has a property. -/
def IsLastOf {α : Type} (P : α → Prop) (l : List α) (a : α) : Prop :=
  ∃ before after, l = before ++ a :: after ∧ P a ∧ ∀ b ∈ after, ¬ P b

theorem getLast?_filter_eq_some {α : Type} {p : α → Bool} {l : List α} {a : α} :
    (l.filter p).getLast? = some a ↔ IsLastOf (p · = true) l a := by
  rw [List.getLast?_filter, List.find?_eq_some_iff_append]
  constructor
  · rintro ⟨ha, after, before, hl, hafter⟩
    refine ⟨before.reverse, after.reverse, ?_, ha, fun b hb => ?_⟩
    · rw [← List.reverse_reverse l, hl]
      simp
    · simpa using hafter b (List.mem_reverse.1 hb)
  · rintro ⟨before, after, rfl, ha, hafter⟩
    refine ⟨ha, after.reverse, before.reverse, by simp, fun b hb => ?_⟩
    simpa using hafter b (List.mem_reverse.1 hb)

/-- Properties that agree on the list have the same last element. -/
theorem IsLastOf.congr {α : Type} {P Q : α → Prop} {l : List α} (h : ∀ b ∈ l, P b ↔ Q b) {a : α} :
    IsLastOf P l a ↔ IsLastOf Q l a := by
  refine exists_congr fun before => exists_congr fun after => and_congr_right fun hl => ?_
  subst hl
  refine and_congr (h a (by simp)) (forall₂_congr fun b hb => not_congr (h b ?_))
  exact List.mem_append_right before (List.mem_cons_of_mem a hb)

variable {T : Type} [Quantity T]

/-! ## Cells -/

namespace BucketReservoir

variable (filter : ExemplarFilter) (boundaries : List Binary64)

/-- Whether a recording is let through and falls into the bucket of an index. -/
def landsIn (i : Nat) (r : Recording T) : Bool :=
  filter.accepts r.span && bucketOf boundaries (toBinary64 r.value) == i

/-- The last recording of a bucket among those that were let through. -/
def lastIn (rs : List (Recording T)) (i : Nat) : Option (Recording T) :=
  (rs.filter (landsIn filter boundaries i)).getLast?

/-- The buckets with recordings that were let through, and the last recording of each. -/
def sampledBuckets (rs : List (Recording T)) : List (Nat × Recording T) :=
  (List.range (boundaries.length + 1)).filterMap fun i => (lastIn filter boundaries rs i).map (i, ·)

variable {filter} {boundaries}

/-- A recording that is not let through changes no bucket. -/
theorem lastIn_concat_of_rejected {r : Recording T} (h : filter.accepts r.span = false)
    (rs : List (Recording T)) (i : Nat) :
    lastIn filter boundaries (rs ++ [r]) i = lastIn filter boundaries rs i := by
  have hlands : landsIn filter boundaries i r = false := by rw [landsIn, h, Bool.false_and]
  rw [lastIn, lastIn, List.filter_append, List.filter_singleton, hlands, cond_false,
    List.append_nil]

/-- One that is let through becomes the last one of its bucket. -/
theorem lastIn_concat_of_accepted {r : Recording T} (h : filter.accepts r.span = true)
    (rs : List (Recording T)) (i : Nat) :
    lastIn filter boundaries (rs ++ [r]) i =
      if bucketOf boundaries (toBinary64 r.value) = i then some r
      else lastIn filter boundaries rs i := by
  have hlands : landsIn filter boundaries i r =
      decide (bucketOf boundaries (toBinary64 r.value) = i) := by
    rw [landsIn, h, Bool.true_and]
    rfl
  rw [lastIn, lastIn, List.filter_append, List.filter_singleton, hlands]
  split
  · rename_i hi
    rw [decide_eq_true hi, cond_true, List.getLast?_concat]
  · rename_i hi
    rw [decide_eq_false hi, cond_false, List.append_nil]

omit [Quantity T] in
/-- A cell that is written for an index. -/
theorem set_map_range (f : Nat → Option (Recording T)) (n j : Nat) (r : Recording T) :
    ((List.range n).map f).set j (some r) =
      (List.range n).map fun i => if j = i then some r else f i := by
  refine List.ext_getElem? fun i => ?_
  rw [List.getElem?_set, List.length_map, List.length_range, List.getElem?_map, List.getElem?_map]
  by_cases hi : i < n
  · rw [List.getElem?_range hi, Option.map_some, Option.map_some]
    by_cases hj : j = i
    · rw [if_pos hj, if_pos hj, if_pos (hj ▸ hi)]
    · rw [if_neg hj, if_neg hj]
  · rw [List.getElem?_eq_none (by rw [List.length_range]; omega), Option.map_none, Option.map_none]
    by_cases hj : j = i
    · rw [if_pos hj, if_neg (hj ▸ hi)]
    · rw [if_neg hj]

/-! ## Sampled buckets -/

/-- A bucket is sampled if it has a last recording. -/
theorem mem_sampledBuckets {rs : List (Recording T)} {i : Nat} {r : Recording T} :
    (i, r) ∈ sampledBuckets filter boundaries rs ↔ lastIn filter boundaries rs i = some r := by
  rw [sampledBuckets, List.mem_filterMap]
  constructor
  · rintro ⟨j, -, hj⟩
    obtain ⟨r', hr', heq⟩ := Option.map_eq_some_iff.1 hj
    cases heq
    exact hr'
  · intro hr
    refine ⟨i, List.mem_range.2 ?_, by rw [hr, Option.map_some]⟩
    -- no recording lands beyond the last bucket
    have hlands := List.of_mem_filter (List.mem_of_getLast? hr)
    rw [landsIn, Bool.and_eq_true, beq_iff_eq] at hlands
    have hle := bucketOf_le boundaries (toBinary64 r.value)
    omega

theorem ascending_sampledBuckets (rs : List (Recording T)) :
    ((sampledBuckets filter boundaries rs).map (·.1)).Pairwise (· < ·) := by
  have hsublist : ((sampledBuckets filter boundaries rs).map (·.1)).Sublist
      (List.range (boundaries.length + 1)) := by
    rw [sampledBuckets]
    generalize List.range (boundaries.length + 1) = indices
    induction indices with
    | nil => exact .slnil
    | cons i rest ih =>
      cases hlast : lastIn filter boundaries rs i with
      | none =>
        rw [List.filterMap_cons_none (by rw [hlast, Option.map_none])]
        exact ih.cons i
      | some r =>
        rw [List.filterMap_cons_some (b := (i, r)) (by rw [hlast, Option.map_some]), List.map_cons]
        exact ih.cons_cons i
  exact List.pairwise_lt_range.sublist hsublist

/-- The recordings of the sampled buckets are those that the cells hold. -/
theorem map_snd_sampledBuckets (rs : List (Recording T)) :
    (sampledBuckets filter boundaries rs).map (·.2) =
      ((List.range (boundaries.length + 1)).map (lastIn filter boundaries rs)).filterMap id := by
  rw [sampledBuckets, List.map_filterMap, List.filterMap_map]
  refine List.filterMap_congr fun i _ => ?_
  rw [Option.map_map]
  exact Option.map_id'

end BucketReservoir

/-! ## Handles -/

namespace Handle

open BucketReservoir

variable {k : Kind} {filter : ExemplarFilter} {boundaries : List Binary64}

/-- After recordings, the cells hold the last one of each bucket. -/
theorem sampler_recordAll_buckets (hfilter : filter ≠ .alwaysOff) (rs : List (Recording T)) :
    ((fresh k (.alignedBuckets filter boundaries)).recordAll rs).sampler =
      some ⟨filter, .buckets ⟨boundaries,
        (List.range (boundaries.length + 1)).map (lastIn filter boundaries rs)⟩⟩ := by
  induction rs using List.reverseRecOn with
  | nil =>
    have hcells : (List.range (boundaries.length + 1)).map (lastIn filter boundaries []) =
        List.replicate (boundaries.length + 1) (none : Option (Recording T)) := by
      show (List.range (boundaries.length + 1)).map (fun _ => none) = _
      rw [List.map_const', List.length_range]
    show SamplingPlan.sampler? _ = _
    rw [hcells]
    cases filter with
    | alwaysOff => exact absurd rfl hfilter
    | alwaysOn => rfl
    | traceBased => rfl
  | append_singleton rs r ih =>
    have hrecord : ((fresh k (.alignedBuckets filter boundaries)).recordAll (rs ++ [r])).sampler =
        ((fresh k (.alignedBuckets filter boundaries)).recordAll rs).sampler.map (·.offer r) :=
      congrArg sampler (recordAll_concat _ rs r)
    rw [hrecord, ih, Option.map_some, Sampler.offer]
    -- a rejected recording changes no cell, an accepted one that of its bucket
    cases haccepts : filter.accepts r.span with
    | false =>
      have hcells : lastIn filter boundaries (rs ++ [r]) = lastIn filter boundaries rs :=
        funext (lastIn_concat_of_rejected haccepts rs)
      rw [if_neg Bool.false_ne_true, hcells]
    | true =>
      have hcells : lastIn filter boundaries (rs ++ [r]) = fun i =>
          if bucketOf boundaries (toBinary64 r.value) = i then some r
          else lastIn filter boundaries rs i :=
        funext (lastIn_concat_of_accepted haccepts rs)
      rw [if_pos rfl, Reservoir.offer, BucketReservoir.offer, set_map_range, hcells]

/-- What a drain finds has an exemplar for each sampled bucket, in their order. -/
theorem exemplars_eq_sampledBuckets {rs : List (Recording T)} {point : AttributeSet}
    {a : Accumulation T k}
    (ha : (((fresh k (.alignedBuckets filter boundaries)).recordAll rs).drain point).1 = some a) :
    a.exemplars = (sampledBuckets filter boundaries rs).map (·.2.exemplar point) := by
  have hcells : (sampledBuckets filter boundaries rs).map (·.2.exemplar point) =
      (((List.range (boundaries.length + 1)).map (lastIn filter boundaries rs)).filterMap id).map
        (·.exemplar point) := by
    rw [← map_snd_sampledBuckets, List.map_map]
    rfl
  rw [hcells]
  unfold drain at ha
  split at ha
  · cases ha
    by_cases hfilter : filter = .alwaysOff
    · -- nothing is let through, and there is no sampler either
      subst hfilter
      have hlast (i : Nat) : lastIn .alwaysOff boundaries rs i = none := by
        rw [lastIn, List.filter_eq_nil_iff.2 fun r _ => by simp [landsIn, ExemplarFilter.accepts]]
        rfl
      have hcells : ((List.range (boundaries.length + 1)).map
          (lastIn .alwaysOff boundaries rs)).filterMap id = [] := by
        rw [List.filterMap_map, List.filterMap_eq_nil_iff]
        exact fun i _ => hlast i
      have hsampler := sampler_recordAll_emptied
        (fresh k (.alignedBuckets .alwaysOff boundaries) : Handle T k) rs
      rw [hcells, Option.map_eq_none_iff.1 hsampler]
      rfl
    · rw [sampler_recordAll_buckets hfilter]
      rfl
  · cases ha

end Handle

end Metering
