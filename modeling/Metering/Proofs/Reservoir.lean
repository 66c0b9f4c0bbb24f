import Metering.Proofs.Handle
import Mathlib.Data.List.Perm.Subperm

/-!
# What reservoirs keep

A reservoir keeps no recording more often than it was offered (`Reservoir.kept_offer`): a full sample
gives up one recording for another, and so does a bucket. A drain turns what was kept into exemplars,
one each, and leaves nothing. So what the sampler of a handle keeps are recordings of the open cycle
that its filter let through (`Handle.Samples`).
-/

namespace Metering

variable {T : Type} {k : Kind}

/-- A list in which an element took the place of another has nothing more often than the list with the
element added. -/
theorem set_subperm {α : Type} (l : List α) (i : Nat) (a : α) : (l.set i a).Subperm (l ++ [a]) := by
  rw [List.set_eq_take_append_cons_drop]
  split
  · have hsub : (l.take i ++ l.drop (i + 1)).Sublist l := by
      have happend := (List.Sublist.refl (l.take i)).append
        (List.drop_sublist_drop_left l (Nat.le_succ i))
      rwa [List.take_append_drop] at happend
    have hperm : (l.take i ++ a :: l.drop (i + 1)).Perm (l.take i ++ l.drop (i + 1) ++ [a]) :=
      List.perm_middle.trans (List.perm_append_singleton _ _).symm
    exact hperm.subperm.trans (hsub.append (.refl [a])).subperm
  · exact (List.sublist_append_left l [a]).subperm

/-- What is made of some members, in some order, is some of what is made of all. -/
theorem subperm_filterMap {α β : Type} (f : α → Option β) {l m : List α} (h : l.Subperm m) :
    (l.filterMap f).Subperm (m.filterMap f) := by
  obtain ⟨l', hperm, hsub⟩ := h
  exact ⟨l'.filterMap f, hperm.filterMap f, hsub.filterMap f⟩

/-- An offer does not change how much room there is. -/
theorem FixedReservoir.capacity_offer (f : FixedReservoir T) (r : Recording T) :
    (f.offer r).capacity = f.capacity := by
  unfold offer
  dsimp only
  split
  · rfl
  · split <;> rfl

namespace Reservoir

/-- The recordings that a reservoir keeps, in the order of their exemplars. -/
def kept : Reservoir T → List (Recording T)
  | fixed f => f.kept
  | buckets b => b.cells.filterMap id

variable [Quantity T]

/-- An offered recording is kept at most once, and no other one is kept anew. -/
theorem kept_offer (r : Recording T) (reservoir : Reservoir T) :
    (reservoir.offer r).kept.Subperm (reservoir.kept ++ [r]) := by
  cases reservoir with
  | fixed f =>
    show (f.offer r).kept.Subperm (f.kept ++ [r])
    unfold FixedReservoir.offer
    dsimp only
    split
    · exact List.Subperm.refl _
    · split
      · exact (List.sublist_append_left f.kept [r]).subperm
      · exact set_subperm f.kept _ r
  | buckets b =>
    have hset := subperm_filterMap id
      (set_subperm b.cells (bucketOf b.boundaries (Quantity.toBinary64 r.value)) (some r))
    rwa [List.filterMap_append] at hset

omit [Quantity T] in
/-- A drain yields one exemplar for each recording that was kept. -/
theorem drain_fst (reservoir : Reservoir T) (point : AttributeSet) :
    (reservoir.drain point).1 = reservoir.kept.map (·.exemplar point) := by
  cases reservoir <;> rfl

omit [Quantity T] in
/-- Nothing is kept after a drain. -/
theorem kept_drain (reservoir : Reservoir T) (point : AttributeSet) :
    (reservoir.drain point).2.kept = [] := by
  cases reservoir with
  | fixed f => rfl
  | buckets b =>
    show (b.cells.map fun _ => none).filterMap id = []
    simp

end Reservoir

variable [Quantity T]

namespace Handle

/-- What the sampler of a handle keeps was recorded and let through. -/
def Samples (h : Handle T k) (filter : ExemplarFilter) (rs : List (Recording T)) : Prop :=
  ∀ s ∈ h.sampler, s.filter = filter ∧
    s.reservoir.kept.Subperm (rs.filter fun r => filter.accepts r.span)

omit [Quantity T] in
/-- A handle that sampled nothing keeps nothing. -/
theorem samples_nil {h : Handle T k} {filter : ExemplarFilter} :
    h.Samples filter [] ↔ ∀ s ∈ h.sampler, s.filter = filter ∧ s.reservoir.kept = [] := by
  simp [Samples, List.subperm_nil]

/-- A new handle has sampled nothing, unless its reservoir is of the caller's making. -/
theorem samples_fresh (k : Kind) {sampling : SamplingPlan T}
    (hkind : ∀ initial, sampling.kind ≠ .custom initial) :
    (fresh k sampling).Samples sampling.filter [] := by
  refine samples_nil.2 fun s hs => ?_
  change s ∈ sampling.sampler? at hs
  unfold SamplingPlan.sampler? at hs
  split at hs
  · cases hs
  · cases hs
  · cases hs
    exact ⟨rfl, rfl⟩
  · cases hs
    exact ⟨rfl, by simp [Reservoir.kept]⟩
  · rename_i hcustom _
    exact absurd hcustom (hkind _)

namespace Samples

variable {h : Handle T k} {filter : ExemplarFilter} {rs : List (Recording T)}

/-- A recording is offered to the sample. -/
theorem record (hh : h.Samples filter rs) (r : Recording T) :
    (h.record r).Samples filter (rs ++ [r]) := by
  intro s' hs'
  obtain ⟨s, hs, rfl⟩ := Option.map_eq_some_iff.1 hs'
  obtain ⟨rfl, hkept⟩ := hh s hs
  rw [List.filter_append, Sampler.offer]
  split
  · rename_i haccepts
    have hnew : [r].filter (fun r => s.filter.accepts r.span) = [r] := by simp [haccepts]
    refine ⟨rfl, (s.reservoir.kept_offer r).trans ?_⟩
    rw [hnew]
    exact hkept.append (List.Subperm.refl [r])
  · rename_i haccepts
    have hnew : [r].filter (fun r => s.filter.accepts r.span) = [] := by simp [haccepts]
    rw [hnew, List.append_nil]
    exact ⟨rfl, hkept⟩

theorem recordAll (hh : h.Samples filter rs) (more : List (Recording T)) :
    (h.recordAll more).Samples filter (rs ++ more) := by
  induction more generalizing h rs with
  | nil => rwa [List.append_nil]
  | cons r rest ih =>
    have hrest := ih (hh.record r)
    rwa [List.append_assoc] at hrest

/-- A drain that finds something yields exemplars of what was sampled. -/
theorem exemplars_eq (hh : h.Samples filter rs) {point : AttributeSet} {a : Accumulation T k}
    (ha : (h.drain point).1 = some a) :
    ∃ kept : List (Recording T), kept.Subperm (rs.filter fun r => filter.accepts r.span) ∧
      a.exemplars = kept.map (·.exemplar point) := by
  unfold drain at ha
  split at ha
  · cases ha
    cases hs : h.sampler with
    | none => exact ⟨[], List.nil_subperm, rfl⟩
    | some s => exact ⟨s.reservoir.kept, (hh s hs).2, s.reservoir.drain_fst point⟩
  · cases ha

/-- A drain leaves nothing sampled, if there is something to find whenever something was recorded. -/
theorem drain (hh : h.Samples filter rs) (hrecorded : h.recorded = !rs.isEmpty)
    (point : AttributeSet) : (h.drain point).2.Samples filter [] := by
  unfold Handle.drain
  split
  · refine samples_nil.2 fun s' hs' => ?_
    obtain ⟨s, hs, rfl⟩ := Option.map_eq_some_iff.1 hs'
    exact ⟨(hh s hs).1, s.reservoir.kept_drain point⟩
  · rename_i hnone
    have hempty : rs = [] := by simpa [hrecorded] using hnone
    rwa [← hempty]

end Samples

/-- A handle that goes through cycles from rest has sampled nothing at the end of the last. -/
theorem Rested.samples_replay {h : Handle T k} (hh : h.Rested) {filter : ExemplarFilter}
    (hsamples : h.Samples filter []) (point : AttributeSet) (cs : List (List (Recording T))) :
    (h.replay point cs).2.Samples filter [] := by
  induction cs generalizing h with
  | nil => exact hsamples
  | cons rs rest ih =>
    have hcycle : (h.recordAll rs).Samples filter rs := hsamples.recordAll rs
    refine ih (hh.drain point rs) (hcycle.drain ?_ point)
    rw [recordAll_recorded, hh.recorded, Bool.false_or]

end Handle

end Metering
