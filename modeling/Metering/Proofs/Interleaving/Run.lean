import Metering.Proofs.Interleaving.Collecting
import Metering.Proofs.Interleaving.Passing

/-!
# Runs of a shared collector

What holds between any two steps, whoever makes them. While the reader rests, what is kept of the live
series is what was reported of them (`Rested`); during a collection, it is doing as it should
(`UnderWay`). Nothing else can be (`InOrder.run`).
-/

namespace Metering

variable {T : Type} {k : Kind} [Quantity T]

namespace Collector

/-! ## The end of a collection -/

/-- What a cycle found is entered series by series. -/
theorem absorbAll_eq_upsertAll (retained : Table AttributeSet (Retained T k))
    (fresh : Table AttributeSet (Accumulation T k)) :
    absorbAll retained fresh =
      retained.upsertAll (fun a old =>
        { old.getD {} with cumulative := some (Accumulation.join (old.getD {}).cumulative a) })
        fresh.entries := rfl

/-- What a cycle found is merged with what is kept of the same set. -/
theorem tally_absorbAll (retained : Table AttributeSet (Retained T k))
    {fresh : Table AttributeSet (Accumulation T k)} (hfresh : fresh.Unique) (set : AttributeSet) :
    (((absorbAll retained fresh).get? set).getD {}).cumulative.map (·.tally) =
      Option.merge k.merge (((retained.get? set).getD {}).cumulative.map (·.tally))
        ((fresh.get? set).map (·.tally)) := by
  rw [absorbAll_eq_upsertAll, Table.get?_upsertAll retained hfresh]
  cases fresh.get? set with
  | none => exact Option.merge_none_right.symm
  | some a => exact Accumulation.tally_join _ a

namespace Collecting

variable {c₀ c : Collector T k} {j₀ j : Journal T} {cycle : Cycle T k}

/-- What is absorbed stands under sets of the snapshot, as does what was kept. -/
theorem covered_absorbAll (h : Collecting c₀ j₀ c cycle j) :
    Covered (absorbAll c.retained cycle.fresh) c₀.names := by
  rw [absorbAll_eq_upsertAll]
  exact h.keeps.covered.upsertAll _ fun v hv =>
    h.finds.covered.known v.1 (List.mem_map_of_mem hv)

/-- What a collection reports of the series in its snapshot is what it drained from them or,
cumulatively, what was ever drained from them. -/
theorem output (h : Collecting c₀ j₀ c cycle j) :
    Covered (c.output cycle) c₀.names ∧
      ∀ n ∈ c₀.names, ((c.output cycle).get? n.2).map (·.tally) =
        k.mergedTally? ((j n.1).told c.config.temporality) := by
  unfold Collector.output
  cases htemporality : c.config.temporality with
  | delta =>
    refine ⟨h.finds.covered, fun n hn => ?_⟩
    rw [Passage.told, Kind.mergedTally?_singleton]
    exact h.finds.tally n hn
  | cumulative =>
    have hcovered := h.covered_absorbAll
    refine ⟨⟨hcovered.unique.filterMap _, fun set hset => ?_⟩, fun n hn => ?_⟩
    · exact hcovered.known set ((Table.keys_filterMap _ _).subset hset)
    -- a total is kept of a set or nothing is, which looks the same
    · have hbind : ∀ r : Option (Retained T k), r.bind (·.cumulative) = (r.getD {}).cumulative := by
        rintro (_ | r) <;> rfl
      dsimp only
      rw [hcovered.unique.get?_filterMap, hbind, tally_absorbAll _ h.finds.covered.unique,
        Passage.told, Kind.mergedTally?_concat, ← h.keeps.cumulative htemporality n hn,
        h.finds.tally n hn, kept]

/-- Erasing the evicted series leaves keys of live series. -/
theorem covered_eraseAll (h : Collecting c₀ j₀ c cycle j) {α : Type} {t : Table AttributeSet α}
    (ht : Covered t c₀.names) : Covered (t.eraseAll cycle.evicted) c.names := by
  refine ⟨ht.unique.of_sublist (t.keys_eraseAll _), fun set hset => ?_⟩
  obtain ⟨n, hn, rfl⟩ := ht.known set ((t.keys_eraseAll _).subset hset)
  refine ⟨n, (h.stays n hn).resolve_right fun hgone => ?_, rfl⟩
  exact Table.not_mem_keys_eraseAll (h.begun.reflexive n hn) hgone hset

/-- A live series of the snapshot is not the same as an evicted one. -/
theorem not_evicted (h : Collecting c₀ j₀ c cycle j) {n : Nat × AttributeSet} (hn : n ∈ c₀.names)
    (hlive : n ∈ c.names) : ¬ cycle.evicted.any (n.2 == ·) = true := by
  intro hany
  obtain ⟨set, hset, hsame⟩ := List.any_eq_true.1 hany
  obtain ⟨m, hm, rfl, hgone⟩ := h.gone set hset
  exact hgone (h.begun.name_inj hn hm hsame ▸ hlive)

/-- A series that came in after the snapshot has no part in the collection. -/
theorem told_eq_nil (h : Collecting c₀ j₀ c cycle j) {n : Nat × AttributeSet}
    (hnew : c₀.nextId ≤ n.1) : ((j n.1).reported ++ [(j n.1).drained]).flatten = [] := by
  have hreported : (j n.1).reported.flatten = [] := by
    rw [h.reported]
    exact (Passage.of_all_nil (h.begun.unissued n.1 hnew)).1
  have hdrained : (j n.1).drained = [] := by
    by_contra hdrained
    obtain ⟨m, hm, hmid⟩ := h.drained n.1 hdrained
    have hlt := h.begun.lt_nextId m hm
    omega
  rw [List.flatten_concat, hreported, hdrained, List.append_nil]

/-- After a collection, what is kept of the series that are left is what was reported of them. -/
theorem keeps_finish (h : Collecting c₀ j₀ c cycle j) :
    (c.finish cycle).2.Keeps (c.finish cycle).2.names fun id => (j id).close := by
  rw [finish_snd]
  cases htemporality : c.config.temporality with
  | delta =>
    refine ⟨h.covered_eraseAll h.keeps.covered, fun hcumulative => ?_⟩
    rw [show _ = c.config.temporality from rfl, htemporality] at hcumulative
    cases hcumulative
  | cumulative =>
    refine ⟨h.covered_eraseAll h.covered_absorbAll, fun _ n hn => ?_⟩
    show (((Table.eraseAll (absorbAll c.retained cycle.fresh) cycle.evicted).get? n.2).getD
        {}).cumulative.map (·.tally) = k.mergedTally? ((j n.1).reported ++ [(j n.1).drained])
    rw [Table.get?_eraseAll]
    by_cases hold : n ∈ c₀.names
    · rw [if_neg (h.not_evicted hold hn), tally_absorbAll _ h.finds.covered.unique,
        h.finds.tally n hold, Kind.mergedTally?_concat, ← h.keeps.cumulative htemporality n hold, kept]
    · have hnew : c₀.nextId ≤ n.1 := (h.precedes.names n hn).resolve_left hold
      rw [Kind.mergedTally?_eq_none.2 (h.told_eq_nil hnew)]
      split
      · rfl
      · rename_i hnot
        rw [h.covered_absorbAll.get?_eq_none fun m hm => ?_]
        · rfl
        · -- it could be the same only as a series that was evicted
          rcases h.stays m hm with hmc | hgone
          · exact h.sound.sets_ne hmc hn fun heq => hold (heq ▸ hm)
          · refine Bool.eq_false_iff.2 fun hsame => ?_
            exact hnot (List.any_eq_true.2 ⟨m.2, hgone, BEq.symm hsame⟩)

/-- The report of a collection, point by point. -/
theorem points_finish (h : Collecting c₀ j₀ c cycle j) :
    ∃ points, points.Perm ((c.finish cycle).1.elim [] (·.points)) ∧
      List.Forall₂
        (fun n p => p.attributes = n.2.toList ∧
          ∃ t, k.mergedTally? ((j n.1).told c.config.temporality) = some t ∧ p.reading = k.read t)
        (c₀.names.filter fun n => !((j n.1).told c.config.temporality).flatten.isEmpty) points := by
  obtain ⟨hcovered, htally⟩ := h.output
  have hpoints : (c.finish cycle).1.elim [] (·.points) =
      (c.output cycle).entries.map fun e => e.2.point e.1 := by
    rw [finish_fst]
    split
    · rename_i hempty
      rw [Table.isEmpty, List.isEmpty_iff] at hempty
      rw [hempty]
      rfl
    · rfl
  have hperm := hcovered.unique.perm_entries h.begun.sets h.begun.reflexive hcovered.known
  rw [hpoints]
  refine ⟨_, hperm.map _, ?_⟩
  rw [List.forall₂_map_right_iff]
  -- a name is left out exactly if nothing was drained of its series
  refine (forall₂_filterMap fun n hn => ?_).imp fun n e hne => ?_
  · rw [Option.map_eq_none_iff, ← Kind.mergedTally?_eq_none (k := k), ← htally n hn,
      Option.map_eq_none_iff]
  · obtain ⟨hn, hentry⟩ := hne
    obtain ⟨a, ha, rfl⟩ := Option.map_eq_some_iff.1 hentry
    have hn' := htally n hn
    rw [ha] at hn'
    exact ⟨rfl, a.tally, hn'.symm, rfl⟩

/-- A collection that found something in a series has a point for it, with the numbers of all that the
journal says it is to tell. -/
theorem exists_point (h : Collecting c₀ j₀ c cycle j) {id : Nat} (hdrained : (j id).drained ≠ []) :
    ∃ n ∈ c₀.names, n.1 = id ∧ ∃ p ∈ (c.finish cycle).1.elim [] (·.points),
      p.attributes = n.2.toList ∧
        (k.mergedTally? ((j id).told c.config.temporality)).map k.read = some p.reading := by
  obtain ⟨n, hn, rfl⟩ := h.drained id hdrained
  obtain ⟨points, hperm, hpoints⟩ := h.points_finish
  have htold : (!((j n.1).told c.config.temporality).flatten.isEmpty) = true := by
    simpa using Passage.told_ne_nil hdrained c.config.temporality
  obtain ⟨p, hp, hattributes, t, ht, hreading⟩ :=
    exists_of_mem_forall₂ hpoints (List.mem_filter.2 ⟨hn, htold⟩)
  refine ⟨n, hn, rfl, p, hperm.subset hp, hattributes, ?_⟩
  rw [ht, hreading, Option.map_some]

end Collecting

end Collector

namespace Shared

/-! ## Between any two steps -/

/-- The reader rests, and what is kept of the live series is what was reported of them. -/
structure Rested (s : Shared T k) (j : Journal T) : Prop where
  stage : s.stage = .resting
  sound : s.collector.Sound j
  inHands : s.collector.InHands s.hands
  keeps : s.collector.Keeps s.collector.names j
  drained : ∀ id, (j id).drained = []

/-- A collection is under way that began with the series of `c₀`. -/
inductive UnderWay (c₀ : Collector T k) (j₀ : Journal T) : Shared T k → Journal T → Prop
  | draining {c : Collector T k} {hands : Nat → Nat} {cycle : Cycle T k} {j : Journal T}
      (collecting : c₀.Collecting j₀ c cycle j) (inHands : c.InHands hands)
      (evicted : cycle.evicted = []) : UnderWay c₀ j₀ ⟨c, hands, .draining cycle⟩ j
  | evicted {c : Collector T k} {hands : Nat → Nat} {cycle : Cycle T k} {j : Journal T}
      (collecting : c₀.Collecting j₀ c cycle j) (inHands : c.InHands hands)
      (pending : cycle.pending = []) : UnderWay c₀ j₀ ⟨c, hands, .evicted cycle⟩ j

variable {s s' : Shared T k} {j j' : Journal T}

/-- Nothing is under way in a new collector, and nothing was recorded. -/
theorem rested_new (sampling : SamplingPlan T) (stream : Stream) (config : ReaderConfig) :
    (new sampling stream config : Shared T k).Rested fun _ => {} where
  stage := rfl
  sound := .new sampling stream config
  inHands := ⟨nofun, fun _ hid => absurd hid (Nat.lt_irrefl 0)⟩
  keeps := .new sampling stream config
  drained _ := rfl

namespace Rested

/-- Recorders leave the reader at rest. -/
theorem move (h : s.Rested j) {move : Move T} (hreflexive : move.IsReflexive)
    (hstep : s.step? (.recorder move) = some s') : s'.Rested (j.move move) := by
  obtain ⟨hhands, rfl⟩ := move_of_step? hstep
  have hsound : (s.collector.move move).Sound (j.move move) :=
    h.sound.move hreflexive fun id hid => h.inHands.live id (hhands id hid)
  have hgrows : s.collector.Grows (s.collector.move move) := s.collector.grows_move move
  have hkeeps := h.keeps.grows hgrows hsound.toDistinct fun id hid =>
    (Passage.of_all_nil (h.sound.unissued id hid)).1
  exact ⟨h.stage, hsound, h.inHands.move h.sound.toDistinct hhands,
    hkeeps.congr rfl rfl (j.reported_move move),
    fun id => by rw [Journal.drained_move, h.drained id]⟩

/-- A snapshot begins a collection. -/
theorem snapshot (h : s.Rested j) {start time : Time}
    (hstep : s.step? (.snapshot start time) = some s') : UnderWay s.collector j s' j := by
  obtain ⟨-, rfl⟩ := snapshot_of_step? hstep
  exact .draining (Collector.collecting_snapshot h.sound h.keeps h.drained start time)
    ⟨h.inHands.holders, h.inHands.live⟩ rfl

/-- At a snapshot, the series in which something waits all have their turn to come. -/
theorem passed (h : s.Rested j) {start time : Time}
    (hstep : s.step? (.snapshot start time) = some s') (id : Nat) :
    Passed (j id).untaken id s' j := by
  obtain ⟨-, rfl⟩ := snapshot_of_step? hstep
  refine ⟨List.prefix_rfl, ?_⟩
  by_cases hwaiting : (j id).waiting = []
  · exact .inr (Passage.untaken_of_waiting_nil hwaiting ▸ List.prefix_rfl)
  · obtain ⟨series, hseries, rfl⟩ := h.sound.live id hwaiting
    exact .inl (List.mem_map_of_mem hseries)

end Rested

namespace UnderWay

variable {c₀ : Collector T k} {j₀ : Journal T}

/-- After the eviction, the collection is still the one of the snapshot. -/
theorem collecting (h : UnderWay c₀ j₀ s j) {cycle : Cycle T k} (hstage : s.stage = .evicted cycle) :
    c₀.Collecting j₀ s.collector cycle j := by
  cases h with
  | draining h hhands hevicted => cases hstage
  | evicted h hhands hpending =>
    cases hstage
    exact h

/-- Until the report, every step keeps a collection under way. -/
theorem step (h : UnderWay c₀ j₀ s j) {step : Step T} (hstep : s.step? step = some s')
    (hreflexive : step.IsReflexive) (hfinish : step ≠ .finish) :
    UnderWay c₀ j₀ s' (note j step s') := by
  cases h with
  | @draining c hands cycle _ h hinHands hevicted =>
    -- recorders may come at any time; of the reader's steps, the stage allows drains and the
    -- eviction
    cases step with
    | recorder move =>
      obtain ⟨hhands, rfl⟩ := move_of_step? hstep
      exact .draining (h.move hreflexive fun id hid => hinHands.live id (hhands id hid))
        (hinHands.move h.sound.toDistinct hhands) hevicted
    | snapshot start time => cases hstep
    | drain id =>
      obtain ⟨_, ⟨⟩, hpending, rfl⟩ := drain_of_step? hstep
      obtain ⟨hdrain, hevicted'⟩ := h.drainSeries hevicted hpending
      exact .draining hdrain (hinHands.drainSeries _ id) hevicted'
    | evict =>
      obtain ⟨_, ⟨⟩, hpending, rfl⟩ := evict_of_step? hstep
      obtain ⟨hevict, hpending', hinHands'⟩ := h.evictIdle hevicted hpending
      exact .evicted hevict (hinHands' hands hinHands) hpending'
    | finish => exact absurd rfl hfinish
  | @evicted c hands cycle _ h hinHands hpending =>
    -- after the eviction, the reader can only report
    cases step with
    | recorder move =>
      obtain ⟨hhands, rfl⟩ := move_of_step? hstep
      exact .evicted (h.move hreflexive fun id hid => hinHands.live id (hhands id hid))
        (hinHands.move h.sound.toDistinct hhands) hpending
    | snapshot start time => cases hstep
    | drain id => cases hstep
    | evict => cases hstep
    | finish => exact absurd rfl hfinish

/-- A report leaves the reader at rest. -/
theorem finish (h : UnderWay c₀ j₀ s j) (hstep : s.step? .finish = some s') :
    s'.Rested (note j .finish s') := by
  cases h with
  | draining h hinHands hevicted => cases hstep
  | @evicted c hands cycle _ h hinHands hpending =>
    cases hstep
    refine ⟨rfl, h.sound.close.of_live_eq ?_ ?_ ?_, ?_, h.keeps_finish, fun _ => rfl⟩
    all_goals
      rw [Collector.finish_snd]
    exact ⟨hinHands.holders, hinHands.live⟩

/-- Steps that come before the report keep a collection under way. -/
theorem run (h : UnderWay c₀ j₀ s j) {steps : List (Step T)}
    (hrun : s.run? j steps = some (s', j')) (hreflexive : ∀ step ∈ steps, step.IsReflexive)
    (hfinish : ∀ step ∈ steps, step ≠ .finish) : UnderWay c₀ j₀ s' j' :=
  run?_preserves (fun h hstep hsort => h.step hstep hsort.1 hsort.2) h hrun fun step hmem =>
    And.intro (hreflexive step hmem) (hfinish step hmem)

end UnderWay

namespace Rested

/-- From its snapshot to its report, a collection is under way. -/
theorem underWay_run (h : s.Rested j) {start time : Time} {during : List (Step T)}
    (hrun : s.run? j (.snapshot start time :: during) = some (s', j'))
    (hreflexive : ∀ step ∈ during, step.IsReflexive) (hfinish : .finish ∉ during) :
    UnderWay s.collector j s' j' := by
  obtain ⟨begun, hsnapshot, hduring⟩ := run?_cons.1 hrun
  exact (h.snapshot hsnapshot).run hduring hreflexive fun step hstep heq => hfinish (heq ▸ hstep)

/-- Before its report, a collection drained all that waited at its snapshot. -/
theorem untaken_prefix_collected (h : s.Rested j) {start time : Time} {during : List (Step T)}
    (hrun : s.run? j (.snapshot start time :: during) = some (s', j')) {id : Nat}
    (htakes : ∀ step ∈ during, step.takes id = false)
    {cycle : Cycle T k} (hstage : s'.stage = .evicted cycle) :
    (j id).untaken <+: (j' id).collected := by
  obtain ⟨begun, hsnapshot, hduring⟩ := run?_cons.1 hrun
  exact ((h.passed hsnapshot id).run hduring htakes).collected (pending_of_evicted hstage)

/-- A collection drains all that waited at its snapshot, and of what came after that the first ones. -/
theorem passes (h : s.Rested j) {start time : Time} {during : List (Step T)}
    (hrun : s.run? j (.snapshot start time :: during) = some (s', j')) {id : Nat}
    (htakes : ∀ step ∈ during, step.takes id = false)
    (hreported : (j' id).reported = (j id).reported) {cycle : Cycle T k}
    (hstage : s'.stage = .evicted cycle) :
    (j' id).drained ++ (j' id).waiting = (j id).waiting ++ foldedInto during id ∧
      (j id).waiting <+: (j' id).drained := by
  have hnone : (j id).collected = (j id).reported.flatten :=
    Passage.collected_of_drained_nil (h.drained id)
  have huntaken := untaken_run hrun (List.forall_mem_cons.2 ⟨rfl, htakes⟩)
  have hprefix := h.untaken_prefix_collected hrun htakes hstage
  rw [Passage.untaken, hnone, Passage.collected, hreported] at hprefix
  rw [Passage.untaken, Passage.untaken, hnone, Passage.collected, hreported, List.append_assoc,
    List.append_assoc] at huntaken
  exact ⟨List.append_cancel_left huntaken, (List.prefix_append_right_inj _).1 hprefix⟩

end Rested

/-- The reader rests or a collection is under way. -/
def InOrder (s : Shared T k) (j : Journal T) : Prop :=
  s.Rested j ∨ ∃ c₀ j₀, UnderWay c₀ j₀ s j

namespace InOrder

/-- Every step keeps a shared collector in order. -/
theorem step (h : s.InOrder j) {step : Step T} (hstep : s.step? step = some s')
    (hreflexive : step.IsReflexive) : s'.InOrder (note j step s') := by
  rcases h with h | ⟨c₀, j₀, h⟩
  · obtain ⟨c, hands, stage⟩ := s
    obtain rfl : stage = .resting := h.stage
    cases step with
    | recorder move => exact .inl (h.move hreflexive hstep)
    | snapshot start time => exact .inr ⟨c, j, h.snapshot hstep⟩
    | drain id => cases hstep
    | evict => cases hstep
    | finish => cases hstep
  · by_cases hfinish : step = .finish
    · subst hfinish
      exact .inl (h.finish hstep)
    · exact .inr ⟨c₀, j₀, h.step hstep hreflexive hfinish⟩

/-- Every run keeps a shared collector in order. -/
theorem run (h : s.InOrder j) {steps : List (Step T)} (hrun : s.run? j steps = some (s', j'))
    (hreflexive : ∀ step ∈ steps, step.IsReflexive) : s'.InOrder j' :=
  run?_preserves (fun h hstep hreflexive => h.step hstep hreflexive) h hrun hreflexive

/-- A collector in order is sound, whatever stage it is at. -/
theorem sound (h : s.InOrder j) : s.collector.Sound j := by
  rcases h with h | ⟨c₀, j₀, h | h⟩
  · exact h.sound
  · exact Collector.Collecting.sound ‹_›
  · exact Collector.Collecting.sound ‹_›

/-- What is in hand is in hand at every stage. -/
theorem inHands (h : s.InOrder j) : s.collector.InHands s.hands := by
  rcases h with h | ⟨c₀, j₀, h | h⟩
  · exact h.inHands
  · assumption
  · assumption

/-- Between collections it is at rest. -/
theorem rested_of_resting (h : s.InOrder j) (hstage : s.stage = .resting) : s.Rested j := by
  rcases h with h | ⟨c₀, j₀, h | h⟩
  · exact h
  · cases hstage
  · cases hstage

/-- A snapshot can be taken only while the reader rests. -/
theorem rested (h : s.InOrder j) {start time : Time} (hstep : s.step? (.snapshot start time) = some s') :
    s.Rested j :=
  h.rested_of_resting (snapshot_of_step? hstep).1

end InOrder

end Shared

end Metering
