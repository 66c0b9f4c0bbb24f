import Metering.Proofs.Reservoir
import Metering.Proofs.Tally.Summary

/-!
# Handles in any use

A handle may be recorded into and drained in any order. What it is at any time depends only on the
recordings since the last drain (`Handle.useAll_fresh`): a drain that finds something takes the
tally back to that of nothing and empties the reservoir, whose size or buckets no recording changes;
and one that finds nothing has nothing to take back, since what was not recorded was not sampled
either. -/

namespace Metering

variable {T : Type} {k : Kind} [Quantity T]

/-! ## Emptied reservoirs -/

namespace Reservoir

omit [Quantity T] in
/-- A reservoir of the same size or with the same buckets that keeps nothing. -/
def emptied : Reservoir T → Reservoir T
  | fixed f => fixed { capacity := f.capacity }
  | buckets b => buckets { b with cells := b.cells.map fun _ => none }

omit [Quantity T] in
/-- What is left of a reservoir after a drain is the same one, emptied. -/
theorem drain_snd (reservoir : Reservoir T) (point : AttributeSet) :
    (reservoir.drain point).2 = reservoir.emptied := by
  cases reservoir <;> rfl

/-- Emptying undoes an offer. -/
theorem emptied_offer (r : Recording T) (reservoir : Reservoir T) :
    (reservoir.offer r).emptied = reservoir.emptied := by
  cases reservoir with
  | fixed f =>
    show fixed { capacity := (f.offer r).capacity } = fixed { capacity := f.capacity }
    rw [f.capacity_offer r]
  | buckets b => simp [offer, BucketReservoir.offer, emptied, List.map_set]

end Reservoir

namespace Sampler

omit [Quantity T] in
/-- A sampler that keeps nothing. -/
def emptied (s : Sampler T) : Sampler T := { s with reservoir := s.reservoir.emptied }

omit [Quantity T] in
/-- What is left of a sampler after a drain is the same one, emptied. -/
theorem drain_snd (s : Sampler T) (point : AttributeSet) : (s.drain point).2 = s.emptied := by
  rw [drain, Reservoir.drain_snd, emptied]

/-- What an empty sampler is like does not depend on what was offered. -/
theorem emptied_offer (s : Sampler T) (r : Recording T) : (s.offer r).emptied = s.emptied := by
  unfold offer
  split
  · exact congrArg (Sampler.mk s.filter) (s.reservoir.emptied_offer r)
  · rfl

end Sampler

omit [Quantity T] in
/-- A new sampler keeps nothing, unless its reservoir is of the caller's making. -/
theorem SamplingPlan.map_emptied_sampler? {p : SamplingPlan T}
    (hkind : ∀ initial, p.kind ≠ .custom initial) :
    p.sampler?.map Sampler.emptied = p.sampler? := by
  unfold sampler?
  split
  · rfl
  · rfl
  · rfl
  · simp [Sampler.emptied, Reservoir.emptied]
  · rename_i hcustom _
    exact absurd hcustom (hkind _)

namespace Handle

/-! ## Renewal -/

/-- A drain that finds something leaves the tally of nothing and an emptied sampler. -/
theorem drain_snd_of_recorded {h : Handle T k} (hrecorded : h.recorded = true)
    (point : AttributeSet) :
    (h.drain point).2 = ⟨k.fresh, false, h.sampler.map Sampler.emptied⟩ := by
  have hdrain : (fun s : Sampler T => (s.drain point).2) = Sampler.emptied :=
    funext fun s => s.drain_snd point
  simp [drain, hrecorded, hdrain]

/-- Whatever was offered, the sampler is the same once it is emptied. -/
theorem sampler_recordAll_emptied (h : Handle T k) (rs : List (Recording T)) :
    (h.recordAll rs).sampler.map Sampler.emptied = h.sampler.map Sampler.emptied := by
  induction rs generalizing h with
  | nil => rfl
  | cons r rest ih =>
    refine (ih (h.record r)).trans ?_
    simp [record, Function.comp_def, Sampler.emptied_offer]

variable {sampling : SamplingPlan T}

/-- A drain leaves a handle as new, whether or not it found anything. -/
theorem drain_snd_recordAll (hkind : ∀ initial, sampling.kind ≠ .custom initial)
    (rs : List (Recording T)) (point : AttributeSet) :
    (((fresh k sampling).recordAll rs).drain point).2 = fresh k sampling := by
  cases rs with
  | nil => exact congrArg Prod.snd (drain_of_not_recorded rfl point)
  | cons r rest =>
    have hrecorded : ((fresh k sampling).recordAll (r :: rest)).recorded = true := by
      rw [recordAll_recorded]
      exact Bool.or_true _
    rw [drain_snd_of_recorded hrecorded, sampler_recordAll_emptied]
    exact congrArg (Handle.mk k.fresh false) (SamplingPlan.map_emptied_sampler? hkind)

/-- So do cycles of recordings that each end in a drain. -/
theorem replay_snd_fresh (hkind : ∀ initial, sampling.kind ≠ .custom initial) (point : AttributeSet)
    (cs : List (List (Recording T))) :
    ((fresh k sampling).replay point cs).2 = fresh k sampling := by
  induction cs with
  | nil => rfl
  | cons rs rest ih =>
    have hdrain := drain_snd_recordAll (k := k) hkind rs point
    rw [← hdrain] at ih
    exact ih.trans hdrain

/-! ## Uses in any order -/

/-- One use of a handle. A recording has attributes or none, and the span that was passed along with
it or else the one it was made in. -/
inductive Use (T : Type) where
  | record (r : Recording T)
  | drain (point : AttributeSet)

/-- The handle after a use. -/
def use (h : Handle T k) : Use T → Handle T k
  | .record r => h.record r
  | .drain point => (h.drain point).2

/-- The handle after uses, one after another. -/
def useAll (h : Handle T k) (uses : List (Use T)) : Handle T k := uses.foldl use h

/-- The recordings among uses that came after the last drain. -/
def sinceDrain (uses : List (Use T)) : List (Recording T) :=
  uses.foldl (fun rs => fun | .record r => rs ++ [r] | .drain _ => []) []

/-- **The state of a handle.** It is that of a new handle which took in the recordings since the
last drain. -/
theorem useAll_fresh (hkind : ∀ initial, sampling.kind ≠ .custom initial) (uses : List (Use T)) :
    (fresh k sampling).useAll uses = (fresh k sampling).recordAll (sinceDrain uses) := by
  induction uses using List.reverseRecOn with
  | nil => rfl
  | append_singleton uses last ih =>
    rw [useAll, List.foldl_concat, sinceDrain, List.foldl_concat]
    change use ((fresh k sampling).useAll uses) last = _
    rw [ih]
    cases last with
    | record r => exact (recordAll_concat _ _ r).symm
    | drain point => exact drain_snd_recordAll hkind _ point

/-- **Drains find what was recorded since the last one.** Take a new handle of any kind, with no
reservoir, a sample of fixed size or one of the buckets and any filter, any uses of it, and a drain
after them. The drain finds nothing if and only if nothing was recorded since the drain before it,
or ever if there was none. Else it finds what a new handle would that took in just these recordings:
a tally that summarises them, and exemplars of different ones among those that the filter let
through. In both cases it leaves the handle as new. -/
theorem drains_find_what_was_recorded [Quantity.Ranked T] [Quantity.Bounded T] [Quantity.Summed T]
    (k : Kind) (sampling : SamplingPlan T) (hkind : ∀ initial, sampling.kind ≠ .custom initial)
    (uses : List (Use T)) (point : AttributeSet) :
    let h := (fresh k sampling).useAll uses
    let rs := sinceDrain uses
    ((h.drain point).1 = none ↔ rs = []) ∧
      (∀ a, (h.drain point).1 = some a →
        (((fresh k sampling).recordAll rs).drain point).1 = some a ∧
        k.Summarises a.tally rs ∧
        ∃ kept : List (Recording T),
          kept.Subperm (rs.filter fun r => sampling.filter.accepts r.span) ∧
            a.exemplars = kept.map (·.exemplar point)) ∧
      (h.drain point).2 = fresh k sampling := by
  intro h rs
  -- whatever was done before the last drain, the handle is a fresh one with what came since
  have hstate : h = (fresh k sampling).recordAll rs := useAll_fresh hkind uses
  have hrested := rested_fresh k sampling
  have hnone : (h.drain point).1 = none ↔ rs = [] := by
    rw [hstate]
    exact hrested.drain_eq_none point
  refine ⟨hnone, fun a ha => ?_, hstate ▸ drain_snd_recordAll hkind rs point⟩
  have hrs : rs ≠ [] := by
    intro hempty
    rw [hnone.2 hempty] at ha
    cases ha
  rw [hstate] at ha
  obtain ⟨b, hb, htally⟩ := hrested.drain_eq_some point hrs
  have hab : a = b := Option.some.inj (ha.symm.trans hb)
  have hsamples : ((fresh k sampling).recordAll rs).Samples sampling.filter ([] ++ rs) :=
    (samples_fresh k hkind).recordAll rs
  refine ⟨ha, ?_, hsamples.exemplars_eq ha⟩
  rw [hab, htally]
  exact k.summarises_tallyOf hrs

/-- One recording in a sampled span is kept. -/
def oneSlot : SamplingPlan Binary64 := ⟨.traceBased, .fixedSize 1⟩

/-- A NaN is recorded and drained; then a NaN, an infinity in a sampled span, and a number. -/
def nanUses : List (Use Binary64) :=
  [.record { value := .nan }, .drain default, .record { value := .nan },
    .record { value := .infinity, span := { trace := 1, span := 2, flags := 1 } },
    .record { value := .ofInt 3 }]

/-- Numbers, a NaN and infinity since the last drain: the extremes are those of the numbers, and the
one slot has the last recording. -/
theorem drains_find_what_was_recorded_of_nans :
    let h := (fresh .minMaxSumCount oneSlot).useAll nanUses
    (∀ initial, oneSlot.kind ≠ .custom initial) ∧ (sinceDrain nanUses).length = 3 ∧
      ∃ a, (h.drain default).1 = some a ∧
        Kind.minMaxSumCount.Summarises a.tally (sinceDrain nanUses) ∧
        Spread.count a.tally = 3 ∧ Spread.min a.tally = .ofInt 3 ∧
        Spread.max a.tally = .infinity ∧ a.exemplars.map (·.value) = [.infinity] ∧
        (h.drain default).2 = fresh .minMaxSumCount oneSlot := by
  intro h
  have hkind : ∀ initial, oneSlot.kind ≠ .custom initial := nofun
  obtain ⟨hnone, hsome, hrenewed⟩ :=
    drains_find_what_was_recorded .minMaxSumCount oneSlot hkind nanUses default
  have hlength : (sinceDrain nanUses).length = 3 := rfl
  refine ⟨hkind, hlength, ?_⟩
  cases ha : (h.drain default).1 with
  | none =>
    rw [hnone.1 ha] at hlength
    cases hlength
  | some a =>
    obtain ⟨-, hsummary, -⟩ := hsome a ha
    have hread : (h.drain default).1.map (fun a : Accumulation Binary64 .minMaxSumCount =>
        (Spread.count a.tally, Spread.min a.tally, Spread.max a.tally,
          a.exemplars.map (·.value))) = some (3, .ofInt 3, .infinity, [.infinity]) := by
      decide +kernel
    rw [ha, Option.map_some, Option.some_inj] at hread
    simp only [Prod.mk.injEq] at hread
    exact ⟨a, rfl, hsummary, hread.1, hread.2.1, hread.2.2.1, hread.2.2.2, hrenewed⟩

end Handle

end Metering
