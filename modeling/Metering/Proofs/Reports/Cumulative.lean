import Metering.Proofs.Collector.Retention

/-!
# Cumulative reports

A cumulative collection reports, for every series that is live when it starts, all that was ever
recorded into the series. The numbers were merged from the drains of many cycles, yet they are those
of a handle that took in the same recordings at one go; only floating-point sums tell in which cycles
the recordings came.
-/

namespace Metering.Collector

variable {T : Type} {k : Kind} [Quantity T]

/-- Commands after a collection find no series that it evicted: a series of the same set is a new
one, into which nothing was recorded before. -/
theorem Follows.unused_of_evicted {c : Collector T k} {l : Ledger T} (h : c.Follows l)
    {start time : Time} {s : Series T k} (hs : s ∈ c.live)
    (hevicted : ∀ t ∈ (c.collect start time).2.live, t.id ≠ s.id) {more : List (Command T)}
    (hmore : (c.collect start time).2.AdmitsAll more) {t : Series T k}
    (ht : t ∈ ((c.collect start time).2.run more).2.live)
    (hset : (t.attributes == s.attributes) = true) : received l.entries t.id = [] := by
  have hcollect : c.Admits (.collect start time) := trivial
  have hafter := h.names_perform hcollect
  have hlater := (h.collect start time).names_run hmore
  rw [received_eq_nil]
  intro e he hid
  rcases hlater.names t.name (List.mem_map_of_mem ht) with hname | hnew
  · -- a series that outlasted the collection is not the evicted one, so its set is another
    obtain ⟨u, hu, hut⟩ := List.mem_map.1 hname
    have hid' : u.id = t.id := congrArg Prod.fst hut
    have hset' : u.attributes = t.attributes := congrArg Prod.snd hut
    obtain ⟨live, retained, hlive, heq⟩ := collect_snd h.distinct h.detached start time
    rw [heq] at hu
    obtain ⟨v, hv, rfl⟩ := List.mem_map.1 (hlive.subset hu)
    have hvs : v = s := by
      refine h.distinct.set_inj hv hs ?_
      rw [show v.attributes = t.attributes from hset']
      exact hset
    refine hevicted _ (heq ▸ hu) ?_
    rw [hvs]
    rfl
  · have hlt := h.lt_nextId e he
    have hle := hafter.nextId_le
    change c.nextId ≤ (c.collect start time).2.nextId at hle
    change (c.collect start time).2.nextId ≤ t.id at hnew
    omega

/-- **Cumulative reports.** Take any commands that may be done before a shutdown, that look only for
sets which equal themselves, and that record at later and later times; and a collection after them.
The collection has one point for each live series that anything was ever recorded into, and reports
nothing if there is none. The numbers are those that a new handle yields after the same recordings,
with the sums of the cycles added in their order; where sums are modular, that is no difference. The
exemplars are those of the last cycle with recordings. A series that comes after an evicted one of
the same set has no part in what was recorded before. -/
theorem cumulative_reports_all_cycles [Quantity.Ranked T] (sampling : SamplingPlan T)
    (stream : Stream) (config : ReaderConfig) (hcumulative : config.temporality = .cumulative)
    {commands : List (Command T)}
    (hadmits : (new sampling stream config : Collector T k).AdmitsAll commands)
    (hreflexive : ∀ command ∈ commands, command.IsReflexive config.filter)
    (htimes : (commands.filterMap Command.recording?).Pairwise (·.time < ·.time))
    (start time : Time) :
    let c : Collector T k := ((new sampling stream config).run commands).2
    let ledger := (new sampling stream config : Collector T k).ledger {} commands
    let after := (c.collect start time).2
    ledger.entries.map (·.recording) = commands.filterMap Command.recording? ∧
      c.Distinct ∧
      ((c.collect start time).1 = none ↔ ∀ s ∈ c.live, received ledger.entries s.id = []) ∧
      (∀ m, (c.collect start time).1 = some m →
        List.Forall₂
          (fun s p => p.attributes = s.attributes.toList ∧
            (∃ a, (((Handle.fresh k sampling).recordAll (received ledger.entries s.id)).drain
                s.attributes).1 = some a ∧
              p.reading = k.read (k.withSum a.tally
                (totalByCycle ((ledger.cycles s.id).filter (!·.isEmpty)))) ∧
              (Quantity.Modular T → p.reading = k.read a.tally)) ∧
            ∃ last, ((Handle.fresh k sampling).replay s.attributes (ledger.cycles s.id)).1.getLast? =
                some last ∧
              p.exemplars = last.exemplars)
          (c.live.filter fun s => !(received ledger.entries s.id).isEmpty) m.points) ∧
      ∀ s ∈ c.live, (∀ t ∈ after.live, t.id ≠ s.id) →
        ∀ more, after.AdmitsAll more → ∀ t ∈ (after.run more).2.live,
          (t.attributes == s.attributes) = true → received ledger.entries t.id = [] := by
  intro c ledger after
  have hfollows : c.Follows ledger := (Follows.new sampling stream config).run hadmits
  have hretains : c.Retains ledger :=
    (Retains.new sampling stream config).run (Follows.new sampling stream config) hadmits hreflexive
  have hsettings : c.settings = ⟨sampling, stream, config⟩ := settings_run _ commands
  have hsampling : c.sampling = sampling := congrArg Settings.sampling hsettings
  have hconfig : c.config.temporality = .cumulative := by
    rw [show c.config = config from congrArg Settings.config hsettings, hcumulative]
  have hentries : ledger.entries.map (·.recording) = commands.filterMap Command.recording? :=
    (Follows.new sampling stream config).entries_ledger hadmits
  -- what the collection reports of each live series
  have hkept (s : Series T k) (hs : s ∈ c.live) :=
    hretains.retained_cumulative hfollows hconfig hs
  have htally (s : Series T k) :
      (Accumulation.joinAll (c.yields ledger.close s.name)).map (·.tally) =
        if received ledger.entries s.id = [] then none
        else some (k.withSum (k.tallyOf (received ledger.entries s.id))
          (totalByCycle ((ledger.cycles s.id).filter (!·.isEmpty)))) :=
    joinAll_yields_tally c ledger s.name fun _ =>
      (hentries ▸ htimes).sublist (received_sublist ledger.entries s.id)
  have hnone (s : Series T k) (hs : s ∈ c.live) :
      (s.retained .cumulative (c.kept s.attributes)).cumulative = none ↔
        received ledger.entries s.id = [] := by
    rw [hkept s hs, ← Option.map_eq_none_iff (f := (·.tally)), htally s]
    simp
  have hcollect := collect_fst hfollows.distinct hfollows.detached start time
  rw [accounts_cumulative hfollows.distinct hfollows.detached hretains.toTracked hconfig] at hcollect
  refine ⟨hentries, hfollows.distinct, ?_, fun m hm => ?_, ?_⟩
  · rw [hcollect, report_eq_none]
    exact forall₂_congr hnone
  · rw [hcollect] at hm
    refine (c.report_points start time hnone hm).imp fun s p hsp => ?_
    obtain ⟨hs, a, ha, rfl⟩ := hsp
    rw [hkept s hs] at ha
    have hne : received ledger.entries s.id ≠ [] := by
      intro hempty
      rw [← hnone s hs, hkept s hs, ha] at hempty
      cases hempty
    have hreading := htally s
    rw [ha, if_neg hne, Option.map_some, Option.some_inj] at hreading
    -- the new handle yields the tally of all recordings
    obtain ⟨b, hb, hbt⟩ := (Handle.rested_fresh k sampling).drain_eq_some s.attributes hne
    have hexemplars := Accumulation.joinAll_exemplars (c.yields ledger.close s.name)
    rw [ha, yields, Ledger.past_close, hsampling] at hexemplars
    obtain ⟨last, hlast, hlasteq⟩ := Option.map_eq_some_iff.1 hexemplars.symm
    refine ⟨rfl, ⟨b, hb, ?_, fun hmodular => ?_⟩, last, hlast, hlasteq.symm⟩
    · rw [hbt]
      exact congrArg k.read hreading
    · rw [hbt, ← k.withSum_total]
      refine congrArg k.read (hreading.trans ?_)
      rw [totalByCycle_eq_total, List.flatten_filter_not_isEmpty, Ledger.flatten_cycles]
  · intro s hs hevicted more hmore t ht hset
    exact hfollows.unused_of_evicted hs hevicted hmore ht hset

/-- The set `a = 1` is evicted after an idle cycle and recorded again; the series of `a = 2` is held
all the time, and so it outlasts idle cycles. -/
def holdingCommands : List (Command Int64) :=
  [.record { value := 5, attributes := [⟨"a", .int 1⟩], time := 1 },
    .hold (.ofList [⟨"a", .int 2⟩]),
    .recordHeld 1 { value := -7, time := 2 },
    .collect 0 3,
    .collect 0 4,
    .record { value := 9, attributes := [⟨"a", .int 1⟩], time := 5 }]

def holdingConfig : ReaderConfig := { ReaderConfig.evicting with temporality := .cumulative }

theorem cumulative_reports_all_cycles_holding :
    let c : Collector Int64 .minMaxSumCount := new .none default holdingConfig
    holdingConfig.temporality = .cumulative ∧ c.AdmitsAll holdingCommands ∧
      (∀ command ∈ holdingCommands, command.IsReflexive holdingConfig.filter) ∧
      (holdingCommands.filterMap Command.recording?).Pairwise (·.time < ·.time) ∧
      ∃ m, ((c.run holdingCommands).2.collect 0 6).1 = some m ∧ m.size = 2 := by
  intro c
  have hadmits : c.AdmitsAll holdingCommands := by decide +kernel
  have hreflexive : ∀ command ∈ holdingCommands, command.IsReflexive holdingConfig.filter := by
    decide +kernel
  have htimes : (holdingCommands.filterMap Command.recording?).Pairwise (·.time < ·.time) := by
    decide +kernel
  obtain ⟨-, -, hnone, hpoints, -⟩ :=
    cumulative_reports_all_cycles (k := .minMaxSumCount) .none default holdingConfig rfl hadmits
      hreflexive htimes 0 6
  refine ⟨rfl, hadmits, hreflexive, htimes, ?_⟩
  cases hm : ((c.run holdingCommands).2.collect 0 6).1 with
  | none =>
    have hempty := hnone.1 hm
    revert hempty
    decide +kernel
  | some m =>
    refine ⟨m, rfl, ?_⟩
    exact (hpoints m hm).length_eq.symm.trans (by decide +kernel)

end Metering.Collector
