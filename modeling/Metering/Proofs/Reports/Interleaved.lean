import Metering.Proofs.Interleaving.Run

/-!
# Reports with recordings in between

Recorders need not wait for a collection. Whatever they do between its steps, each recording is
reported in that collection or waits in a live series for the next one: a recording that comes before
the drain of its series is drained there, one that comes after it waits, and one that comes into a
series which is then evicted is drained by the eviction.
-/

namespace Metering.Shared

variable {T : Type} {k : Kind} [Quantity T]

/-- **Reports with recordings in between.** Take any steps, and after them a collection with any steps
of recorders in between, up to its report.

Every recording ever folded into a series is in one place of its journal. What waited at the snapshot
and what was folded in after it was drained by the collection or still waits, in this order, and all
that waited at the snapshot was drained. What still waits after the report is in the handles of the
live series, which have identities and sets of their own, and among which are all that recorders have
in hand. What was drained is in the report: it has one point for each series of the snapshot with
something to tell, and the numbers of the point are the merged tallies of what the collection drained
from the series or, cumulatively, of what each collection ever drained from it. -/
theorem recordings_in_between_are_reported_once (sampling : SamplingPlan T) (stream : Stream)
    (config : ReaderConfig) {before during : List (Step T)} {s₀ s₁ : Shared T k}
    {j₀ j₁ : Journal T} {start time : Time} {cycle : Cycle T k}
    (hbefore : (new sampling stream config : Shared T k).run? (fun _ => {}) before = some (s₀, j₀))
    (hduring : s₀.run? j₀ (.snapshot start time :: during) = some (s₁, j₁))
    (hstage : s₁.stage = .evicted cycle)
    (hbetween : ∀ step ∈ during, step.IsBetween)
    (hreflexive : ∀ step ∈ before ++ during, step.IsReflexive) :
    let report := (s₁.collector.finish cycle).1
    let after := (s₁.collector.finish cycle).2
    (∀ id, (j₁ id).all.Perm (foldedInto (before ++ during) id)) ∧
      (∀ id, (j₁ id).drained ++ (j₁ id).waiting = (j₀ id).waiting ++ foldedInto during id ∧
        (j₀ id).waiting <+: (j₁ id).drained) ∧
      after.Distinct ∧
      (∀ s ∈ after.live, s.handle.Holds (j₁ s.id).waiting) ∧
      (∀ id, (j₁ id).waiting ≠ [] ∨ 0 < s₁.hands id → ∃ s ∈ after.live, s.id = id) ∧
      s₀.collector.Distinct ∧
      (∀ id, (j₁ id).drained ≠ [] → ∃ s ∈ s₀.collector.live, s.id = id) ∧
      ∃ points, points.Perm (report.elim [] (·.points)) ∧
        List.Forall₂
          (fun s p => p.attributes = s.attributes.toList ∧
            ∃ t, k.mergedTally? ((j₁ s.id).told config.temporality) = some t ∧ p.reading = k.read t)
          (s₀.collector.live.filter fun s => !((j₁ s.id).told config.temporality).flatten.isEmpty)
          points := by
  intro report after
  -- the first step is a snapshot, which is taken of a collector at rest only
  obtain ⟨begun, hsnapshot, -⟩ := run?_cons.1 hduring
  have horder : s₀.InOrder j₀ :=
    InOrder.run (.inl (rested_new sampling stream config)) hbefore fun step hstep =>
      hreflexive step (List.mem_append_left _ hstep)
  have hrested : s₀.Rested j₀ := horder.rested hsnapshot
  have hunder : UnderWay s₀.collector j₀ s₁ j₁ := hrested.underWay_run hduring
    (fun step hstep => hreflexive step (List.mem_append_right _ hstep))
    fun hmem => (hbetween _ hmem).ne_finish rfl
  have hcollecting : s₀.collector.Collecting j₀ s₁.collector cycle j₁ := hunder.collecting hstage
  have hfinish : s₁.step? .finish = some ⟨after, s₁.hands, .resting⟩ := by
    simp only [step?, hstage]
    rfl
  have hended : Rested ⟨after, s₁.hands, .resting⟩ fun id => (j₁ id).close := hunder.finish hfinish
  have hafter : after.Sound fun id => (j₁ id).close := hended.sound
  have hpasses (id : Nat) :=
    hrested.passes hduring (fun step hstep => (hbetween step hstep).takes id)
      (hcollecting.reported id) hstage
  have hconfig : s₁.collector.config = config := by
    have hsettings := (settings_run? hduring).trans (settings_run? hbefore)
    exact congrArg Collector.Settings.config hsettings
  refine ⟨fun id => ?_, hpasses, hafter.toDistinct, hafter.holds,
    fun id hid => hid.elim (hafter.live id) (hended.inHands.live id), hrested.sound.toDistinct,
    fun id hid => ?_, ?_⟩
  · have hall := (all_run_perm hduring id).trans ((all_run_perm hbefore id).append_right _)
    rw [foldedInto, List.flatMap_append]
    exact hall
  · obtain ⟨n, hn, rfl⟩ := hcollecting.drained id hid
    obtain ⟨s, hs, rfl⟩ := List.mem_map.1 hn
    exact ⟨s, hs, rfl⟩
  · obtain ⟨points, hperm, hpoints⟩ := hcollecting.points_finish
    -- what the series waited for is known by their names, so the live series are read off these
    rw [hconfig, Collector.names, List.filter_map, List.forall₂_map_left_iff] at hpoints
    exact ⟨points, hperm, hpoints⟩

/-- The series of `a = 1` is recorded into and reported, while that of `a = 2` is held. -/
def lateBefore : List (Step UInt64) :=
  [.recorder (.acquire (.ofList [⟨"a", .int 1⟩])),
    .recorder (.fold 0 { value := 5 }),
    .recorder (.release 0),
    .recorder (.acquire (.ofList [⟨"a", .int 2⟩])),
    .snapshot 0 1, .drain 0, .drain 1, .evict, .finish]

/-- Each series is recorded into after its drain. That of `a = 1` is then evicted, and a new one is
opened before the report; that of `a = 2` is not evicted, since it is held. -/
def lateDuring : List (Step UInt64) :=
  [.drain 1,
    .recorder (.fold 1 { value := 2 }),
    .drain 0,
    .recorder (.acquire (.ofList [⟨"a", .int 1⟩])),
    .recorder (.fold 0 { value := 7 }),
    .recorder (.release 0),
    .evict,
    .recorder (.acquire (.ofList [⟨"a", .int 1⟩])),
    .recorder (.fold 2 { value := 9 })]

theorem recordings_in_between_are_reported_once_late :
    ∃ (s₀ s₁ : Shared UInt64 (.sum true)) (j₀ j₁ : Journal UInt64) (cycle : Cycle UInt64 (.sum true)),
      (new .none default .evicting).run? (fun _ => {}) lateBefore = some (s₀, j₀) ∧
        s₀.run? j₀ (.snapshot 0 2 :: lateDuring) = some (s₁, j₁) ∧
        s₁.stage = .evicted cycle ∧
        (∀ step ∈ lateDuring, step.IsBetween) ∧
        (∀ step ∈ lateBefore ++ lateDuring, step.IsReflexive) ∧
        [0, 1, 2].map (fun id => (j₁ id).drained.map (·.value)) = [[7], [], []] ∧
        [0, 1, 2].map (fun id => (j₁ id).waiting.map (·.value)) = [[], [2], [9]] ∧
        ∀ s ∈ (s₁.collector.finish cycle).2.live, s.handle.Holds (j₁ s.id).waiting := by
  let begun : Shared UInt64 (.sum true) := new .none default .evicting
  have hbetween : ∀ step ∈ lateDuring, step.IsBetween := by decide +kernel
  have hreflexive : ∀ step ∈ lateBefore ++ lateDuring, step.IsReflexive := by decide +kernel
  have hbegin : (begun.run? (fun _ => {}) lateBefore).isSome = true := by decide +kernel
  have hend : (begun.run? (fun _ => {}) (lateBefore ++ .snapshot 0 2 :: lateDuring)).map (fun r =>
      ((r.1.step? .finish).isSome,
        [0, 1, 2].map fun id => (r.2 id).drained.map (·.value),
        [0, 1, 2].map fun id => (r.2 id).waiting.map (·.value))) =
      some (true, [[7], [], []], [[], [2], [9]]) := by
    decide +kernel
  obtain ⟨⟨s₀, j₀⟩, hbefore⟩ := Option.isSome_iff_exists.1 hbegin
  rw [run?_append hbefore] at hend
  obtain ⟨⟨s₁, j₁⟩, hduring, hsummary⟩ := Option.map_eq_some_iff.1 hend
  simp only [Prod.mk.injEq] at hsummary
  obtain ⟨hfinish, hdrained, hwaiting⟩ := hsummary
  obtain ⟨after, hafter⟩ := Option.isSome_iff_exists.1 hfinish
  obtain ⟨cycle, hstage, -⟩ := finish_of_step? hafter
  obtain ⟨-, -, -, hholds, -⟩ :=
    recordings_in_between_are_reported_once (k := .sum true) .none default .evicting hbefore hduring
      hstage hbetween hreflexive
  exact ⟨s₀, s₁, j₀, j₁, cycle, hbefore, hduring, hstage, hbetween, hreflexive, hdrained, hwaiting,
    hholds⟩

end Metering.Shared
