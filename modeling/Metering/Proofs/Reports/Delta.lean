import Metering.Proofs.Collector.Ledger
import Metering.Proofs.Collector.Settings

/-!
# Delta reports

A delta collection reports each recording once: it has one point for every series that something was
recorded into since the last collection, with the numbers of a new handle that takes in the same
recordings. Eviction, the limit and held series do not come into it, since every recording waits in a
live series for the next collection.
-/

namespace Metering

variable {T : Type} {k : Kind} [Quantity T]

/-! ## What a delta collection reports -/

namespace Collector

/-- **Delta reports.** Take any commands that may be done before a shutdown, and a collection after
them. Every recording that the commands made is in one cycle of the ledger. Those of the open cycle
are in live series, which have identities and sets of their own. The collection reports nothing if
there are none; otherwise it has one point for each series that received any, with the numbers that
a new handle yields after the same recordings. -/
theorem delta_reports_open_cycle (sampling : SamplingPlan T) (stream : Stream)
    (config : ReaderConfig) (hdelta : config.temporality = .delta) {commands : List (Command T)}
    (hadmits : (new sampling stream config : Collector T k).AdmitsAll commands)
    (start time : Time) :
    let c : Collector T k := ((new sampling stream config).run commands).2
    let ledger := (new sampling stream config : Collector T k).ledger {} commands
    ledger.entries.map (·.recording) = commands.filterMap Command.recording? ∧
      c.Distinct ∧
      (∀ e ∈ ledger.current, ∃ s ∈ c.live, s.id = e.series) ∧
      ((c.collect start time).1 = none ↔ ledger.current = []) ∧
      ∀ m, (c.collect start time).1 = some m →
        List.Forall₂
          (fun s p => p.attributes = s.attributes.toList ∧
            ∃ a, (((Handle.fresh k sampling).recordAll (ledger.since s.id)).drain s.attributes).1 = some a ∧
              p.reading = k.read a.tally)
          (c.live.filter fun s => !(ledger.since s.id).isEmpty) m.points := by
  intro c ledger
  have hfollows : c.Follows ledger := (Follows.new sampling stream config).run hadmits
  have hsettings : c.settings = ⟨sampling, stream, config⟩ := settings_run _ commands
  have hconfig : c.config.temporality = .delta := by
    rw [show c.config = config from congrArg Settings.config hsettings, hdelta]
  have hcollect := collect_fst hfollows.distinct hfollows.detached start time
  rw [accounts_delta hfollows.distinct hfollows.detached hconfig] at hcollect
  refine ⟨(Follows.new sampling stream config).entries_ledger hadmits, hfollows.distinct,
    hfollows.live, ?_, fun m hm => ?_⟩
  · rw [hcollect, findings, report_eq_none]
    constructor
    · intro hnone
      refine List.eq_nil_iff_forall_not_mem.2 fun e he => ?_
      obtain ⟨s, hs, hid⟩ := hfollows.live e he
      exact received_eq_nil.1 ((hfollows.yield_eq_none hs).1 (hnone s hs)) e he hid.symm
    · intro hempty s hs
      exact (hfollows.yield_eq_none hs).2 (by rw [Ledger.since, hempty]; rfl)
  · rw [hcollect, findings] at hm
    have hpoints := c.report_points start time (fun s hs => hfollows.yield_eq_none hs) hm
    refine hpoints.imp fun s p hsp => ?_
    obtain ⟨hs, a, ha, rfl⟩ := hsp
    refine ⟨rfl, ?_⟩
    -- both the series and the new handle yield the tally of the open cycle
    have htally := hfollows.yield_tally hs
    rw [← (Handle.rested_fresh k sampling).drain_tally s.attributes, ha] at htally
    obtain ⟨b, hb, hab⟩ := Option.map_eq_some_iff.1 htally.symm
    exact ⟨b, hb, congrArg k.read hab.symm⟩

/-- One series at most is tracked, and evicted after one idle cycle. The set `a = 2` comes too late
and shares the overflow series, which is held over a collection; both series are then evicted, and
recorded again. -/
def evictingCommands : List (Command UInt64) :=
  [.record { value := 5, attributes := [⟨"a", .int 1⟩] },
    .hold (.ofList [⟨"a", .int 2⟩]),
    .recordHeld 1 { value := 7 },
    .collect 0 1,
    .release 1,
    .collect 0 2,
    .record { value := 9, attributes := [⟨"a", .int 1⟩] },
    .record { value := 2, attributes := [⟨"b", .int 1⟩] }]

def evictingConfig : ReaderConfig :=
  { ReaderConfig.evicting with temporality := .delta, limit := 1, limit_pos := Nat.one_pos }

theorem delta_reports_open_cycle_evicting :
    let c : Collector UInt64 (.sum true) := new .none default evictingConfig
    evictingConfig.temporality = .delta ∧ c.AdmitsAll evictingCommands ∧
      ∃ m, ((c.run evictingCommands).2.collect 0 3).1 = some m ∧ m.size = 2 := by
  intro c
  have hadmits : c.AdmitsAll evictingCommands := by decide +kernel
  obtain ⟨-, -, -, hnone, hpoints⟩ :=
    delta_reports_open_cycle (k := .sum true) .none default evictingConfig rfl hadmits 0 3
  refine ⟨rfl, hadmits, ?_⟩
  cases hm : ((c.run evictingCommands).2.collect 0 3).1 with
  | none => exact absurd (hnone.1 hm) (by decide +kernel)
  | some m =>
    refine ⟨m, rfl, ?_⟩
    exact (hpoints m hm).length_eq.symm.trans (by decide +kernel)

end Collector

end Metering
