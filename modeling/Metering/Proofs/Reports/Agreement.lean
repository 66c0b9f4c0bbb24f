import Metering.Proofs.Collector.Twins
import Metering.Proofs.Instrument.Hearing

/-!
# Agreement of delta and cumulative reports

Two readers of one instrument, one of which asks for deltas and the other one for totals, get the same
story. Whenever both have caught up with the recordings, the last totals are the deltas merged; and
when they collect together, two totals in a row differ by the deltas of the round in between.
-/

namespace Metering.Instrument

variable {T : Type} [Quantity T]

section

variable [Quantity.Ranked T] (aggregation : Aggregation) {k : Kind} (sampling : SamplingPlan T)
  (stream : Stream) {d u : Nat} {config config' : ReaderConfig} (hdelta : config.temporality = .delta)
  (hcumulative : config'.temporality = .cumulative) (hlimit : config.limit = config'.limit)
  (hfilter : config.filter = config'.filter) (hidle : config.maxIdle = none)
  (hidle' : config'.maxIdle = none) {commands : List (Command T)}
  (hshutdown : ∀ start time, .shutdown start time ∉ commands)
  (hreflexive : ∀ r, .record r ∈ commands →
    (config.filter.apply r.attributes == config.filter.apply r.attributes) = true)
  (htimes : (commands.filterMap Command.recording?).Pairwise (·.time < ·.time))

omit [Quantity.Ranked T] in
include htimes in
/-- What a reader hears of is recorded at later and later times. -/
theorem times_heard (reader : Nat) :
    ((commands.filterMap (Command.heardBy aggregation reader)).filterMap
      Metering.Command.recording?).Pairwise (·.time < ·.time) := by
  rw [recordings_heard]
  exact htimes.sublist List.filter_sublist

include hdelta hcumulative hlimit hfilter hidle hidle' hshutdown hreflexive htimes

/-- The last totals of a settled reader merge the deltas of another one. -/
theorem merges_of_settled [Quantity.Modular T] (hds : Settled d commands) (hus : Settled u commands) :
    ∃ last,
      ((Collector.new sampling stream config' : Collector T k).allAccounts
        (commands.filterMap (Command.heardBy aggregation u))).getLast? = some last ∧
      Collector.Merges
        ((Collector.new sampling stream config : Collector T k).allAccounts
          (commands.filterMap (Command.heardBy aggregation d))).flatten last := by
  obtain ⟨ds, start, time, hheard⟩ := hds.heard aggregation hshutdown
  obtain ⟨us, start', time', hheard'⟩ := hus.heard aggregation hshutdown
  have hplain_d := plain_heard aggregation d hshutdown
  have hplain_u := plain_heard aggregation u hshutdown
  have hsets_d := reflexive_heard aggregation d hreflexive
  have hsets_u := reflexive_heard aggregation u (hfilter ▸ hreflexive)
  have hlater := times_heard aggregation htimes u
  have hsame := (recordings_heard aggregation d commands).trans
    (recordings_heard aggregation u commands).symm
  rw [hheard] at hplain_d hsets_d hsame
  rw [hheard', Collector.filterMap_recording?_collect us] at hlater hsame
  rw [hheard'] at hplain_u hsets_u
  -- the totals that count are taken before the last collection changes anything
  have hmem : ∀ heard ∈ us, heard ∈ us ++ [Metering.Command.collect start' time'] :=
    fun heard hheard => List.mem_append_left _ hheard
  rw [hheard, hheard', Collector.allAccounts_collect _ us, List.getLast?_concat]
  exact ⟨_, rfl, Collector.merges_of_run sampling stream hlimit hfilter hidle hidle' hdelta
    hcumulative hplain_d (fun heard hheard => hplain_u heard (hmem heard hheard)) hsets_d
    (fun heard hheard => hsets_u heard (hmem heard hheard)) hsame hlater start' time'⟩

/-- The deltas of a round that both readers begin settled and end back to back bridge the totals. -/
theorem bridged_of_settled [Quantity.Word T] {before closing : List (Command T)}
    {rs : List (Recording T)} (hcommands : commands = before ++ rs.map .record ++ closing)
    (hds : Settled d before) (hus : Settled u before) (hne : d ≠ u)
    (hclosing : BackToBack d u closing) (hk : k ≠ .lastValue) :
    ∃ previous round current,
      [previous, current] <:+ (Collector.new sampling stream config' : Collector T k).allAccounts
        (commands.filterMap (Command.heardBy aggregation u)) ∧
      ((Collector.new sampling stream config : Collector T k).allAccounts
        (commands.filterMap (Command.heardBy aggregation d))).getLast? = some round ∧
      Collector.Bridged previous round current := by
  subst hcommands
  have hbefore : ∀ start time, .shutdown start time ∉ before := fun start time hmem =>
    hshutdown start time (List.mem_append_left _ (List.mem_append_left _ hmem))
  obtain ⟨ds, start, time, hheard⟩ := hds.heard aggregation hbefore
  obtain ⟨us, start', time', hheard'⟩ := hus.heard aggregation hbefore
  obtain ⟨began, ended, hclosing_d⟩ := hclosing.heard hne aggregation
  obtain ⟨began', ended', hclosing_u⟩ := hclosing.symm.heard hne.symm aggregation
  have hround_d := heard_round hheard hclosing_d rs
  have hround_u := heard_round hheard' hclosing_u rs
  have hplain_d := plain_heard aggregation d hshutdown
  have hplain_u := plain_heard aggregation u hshutdown
  have hsets_d := reflexive_heard aggregation d hreflexive
  have hsets_u := reflexive_heard aggregation u (hfilter ▸ hreflexive)
  have hlater := times_heard aggregation htimes u
  -- up to the round, both readers have heard of the same recordings
  have hsame := (recordings_heard aggregation d before).trans
    (recordings_heard aggregation u before).symm
  rw [hround_d] at hplain_d hsets_d
  rw [hround_u] at hplain_u hsets_u hlater
  rw [Collector.filterMap_recording?_collect] at hlater
  rw [hheard, hheard', Collector.filterMap_recording?_collect,
    Collector.filterMap_recording?_collect] at hsame
  rw [hround_d, hround_u, Collector.allAccounts_round _ us, Collector.allAccounts_collect,
    List.getLast?_concat]
  exact ⟨_, _, _, List.suffix_append _ _, rfl, Collector.bridged_of_run sampling stream hlimit
    hfilter hidle hidle' hdelta hcumulative
    (fun heard hheard => hplain_d heard (List.mem_append_left _ hheard))
    (fun heard hheard => hplain_u heard (List.mem_append_left _ hheard))
    (fun heard hheard => hsets_d heard (List.mem_append_left _ hheard))
    (fun heard hheard => hsets_u heard (List.mem_append_left _ hheard)) hsame hlater hk
    began ended began' ended'⟩

end

/-- **Delta and cumulative accounting agree.** Take two readers of an instrument whose configurations
differ in their temporality only and evict nothing, and a run of recordings, for sets that equal
themselves, at later and later times, and of collections. What the readers obtain shows the accounts
of two collectors. Whenever both readers have settled, the last totals of the cumulative reader merge
all deltas of the other one. And when, both being settled, further recordings are made and both
readers collect back to back, then the deltas of that round bridge the totals before and after it. -/
theorem delta_and_cumulative_agree [Quantity.Ranked T] [Quantity.Word T] (stream : Stream)
    (aggregation : Aggregation) (filter : ExemplarFilter) (parallelism : Nat)
    (configs : List ReaderConfig) {i : Instrument T}
    (hnew : new stream aggregation filter parallelism configs = .ok i) (hdrop : aggregation ≠ .drop)
    {d u : Nat} {config config' : ReaderConfig} (hd : configs[d]? = some config)
    (hu : configs[u]? = some config') (hdelta : config.temporality = .delta)
    (hcumulative : config'.temporality = .cumulative) (hlimit : config.limit = config'.limit)
    (hfilter : config.filter = config'.filter) (hidle : config.maxIdle = none)
    (hidle' : config'.maxIdle = none) {commands : List (Command T)}
    (hshutdown : ∀ start time, .shutdown start time ∉ commands)
    (hreflexive : ∀ r, .record r ∈ commands →
      (config.filter.apply r.attributes == config.filter.apply r.attributes) = true)
    (htimes : (commands.filterMap Command.recording?).Pairwise (·.time < ·.time)) :
    ∃ k sampling, aggregation.kind? = .ok (some k) ∧
      Aggregation.sampling filter (max parallelism 1) k = .ok sampling ∧
      let deltas := (Collector.new sampling stream config : Collector T k).allAccounts
        (commands.filterMap (Command.heardBy aggregation d))
      let totals := (Collector.new sampling stream config' : Collector T k).allAccounts
        (commands.filterMap (Command.heardBy aggregation u))
      (i.results d commands).map pointsOf =
          deltas.map (·.map fun e => ⟨k, e.2.point e.1⟩) ∧
        (i.results u commands).map pointsOf =
          totals.map (·.map fun e => ⟨k, e.2.point e.1⟩) ∧
        (Settled d commands → Settled u commands →
          ∃ last, totals.getLast? = some last ∧ Collector.Merges deltas.flatten last) ∧
        ∀ before (rs : List (Recording T)) closing, commands = before ++ rs.map .record ++ closing →
          Settled d before → Settled u before → BackToBack d u closing → k ≠ .lastValue →
          ∃ previous round current, [previous, current] <:+ totals ∧ deltas.getLast? = some round ∧
            Collector.Bridged previous round current := by
  rcases new_cases hnew with ⟨hdrop', -⟩ | ⟨k, sampling, -, hkind, hsampling, rfl⟩
  · exact absurd hdrop' hdrop
  have hne : d ≠ u := by
    rintro rfl
    rw [hd, Option.some_inj] at hu
    rw [hu, hcumulative] at hdelta
    cases hdelta
  -- what a reader sees is what its own collector, told the same, accounts for
  have hpoints {reader : Nat} {reading : ReaderConfig} (hreading : configs[reader]? = some reading) :
      (results ⟨stream, aggregation, .collecting k (configs.map (Collector.new sampling stream))⟩
          reader commands).map pointsOf =
        ((Collector.new sampling stream reading : Collector T k).allAccounts
          (commands.filterMap (Command.heardBy aggregation reader))).map
          (·.map fun e => ⟨k, e.2.point e.1⟩) := by
    rw [(serves_new stream aggregation sampling hreading).results_eq commands]
    exact Collector.pointsOf_results (.new sampling stream reading)
      (plain_heard aggregation reader hshutdown)
  refine ⟨k, sampling, hkind, hsampling, hpoints hd, hpoints hu, fun hds hus => ?_, ?_⟩
  · exact merges_of_settled aggregation sampling stream hdelta hcumulative hlimit hfilter hidle hidle'
      hshutdown hreflexive htimes hds hus
  · intro before rs closing hcommands hds hus hclosing hk
    exact bridged_of_settled aggregation sampling stream hdelta hcumulative hlimit hfilter hidle
      hidle' hshutdown hreflexive htimes hcommands hds hus hne hclosing hk

/-- Two readers that first collect each on its own, and settle. -/
def settlingCommands : List (Command UInt64) :=
  [.record { value := 5, attributes := [⟨"a", .int 1⟩], time := 1 },
    .collect 0 0 2,
    .record { value := 7, attributes := [⟨"a", .int 1⟩], time := 3 },
    .collect 1 0 4,
    .collect 0 0 4]

/-- The readers settle, and then collect back to back. -/
def pairedCommands : List (Command UInt64) :=
  settlingCommands ++
      [{ value := 2, attributes := [⟨"a", .int 1⟩], time := 5 },
        { value := 9, attributes := [⟨"b", .int 1⟩], time := 6 }].map .record ++
    [.collect 1 0 7, .collect 0 0 7]

theorem delta_and_cumulative_agree_paired :
    ∃ i : Instrument UInt64,
      new default .minMaxSumCount .alwaysOff 1 [{ temporality := .delta }, {}] = .ok i ∧
        let deltas := (Collector.new ⟨.alwaysOff, .fixedSize 1⟩ default { temporality := .delta } :
          Collector UInt64 .minMaxSumCount).allAccounts
            (pairedCommands.filterMap (Command.heardBy .minMaxSumCount 0))
        let totals := (Collector.new ⟨.alwaysOff, .fixedSize 1⟩ default {} :
          Collector UInt64 .minMaxSumCount).allAccounts
            (pairedCommands.filterMap (Command.heardBy .minMaxSumCount 1))
        (∃ last, totals.getLast? = some last ∧ Collector.Merges deltas.flatten last) ∧
          ∃ previous round current, [previous, current] <:+ totals ∧ deltas.getLast? = some round ∧
            Collector.Bridged previous round current := by
  obtain ⟨i, hnew⟩ : ∃ i : Instrument UInt64,
      new default .minMaxSumCount .alwaysOff 1 [{ temporality := .delta }, {}] = .ok i := ⟨_, rfl⟩
  have hshutdown : ∀ start time, .shutdown start time ∉ pairedCommands := by
    simp [pairedCommands, settlingCommands]
  have hreflexive : ∀ r, .record r ∈ pairedCommands →
      (KeyFilter.apply ({} : ReaderConfig).filter r.attributes ==
        KeyFilter.apply ({} : ReaderConfig).filter r.attributes) = true := by
    intro r hr
    simp only [pairedCommands, settlingCommands, List.map_cons, List.map_nil, List.cons_append,
      List.nil_append, List.mem_cons, reduceCtorEq, Command.record.injEq, false_or, List.not_mem_nil,
      or_false] at hr
    rcases hr with rfl | rfl | rfl | rfl <;> decide +kernel
  refine ⟨i, hnew, ?_⟩
  obtain ⟨k, sampling, hkind, hsampling, -, -, hmerges, hbridged⟩ :=
    delta_and_cumulative_agree _ _ _ _ _ hnew (by decide) (d := 0) (u := 1) rfl rfl rfl rfl rfl rfl rfl
      rfl hshutdown hreflexive (by decide)
  cases hkind
  cases hsampling
  refine ⟨hmerges ?_ ?_, hbridged settlingCommands _ _ rfl ?_ ?_ ?_ (by decide)⟩
  · exact ⟨pairedCommands.take 8, 0, 7, [], rfl, fun r => List.not_mem_nil⟩
  · exact ⟨pairedCommands.take 7, 0, 7, [.collect 0 0 7], rfl, by simp⟩
  · exact ⟨settlingCommands.take 4, 0, 4, [], rfl, fun r => List.not_mem_nil⟩
  · exact ⟨settlingCommands.take 3, 0, 4, [.collect 0 0 4], rfl, by simp⟩
  · exact ⟨0, 7, 0, 7, .inr rfl⟩

end Metering.Instrument
