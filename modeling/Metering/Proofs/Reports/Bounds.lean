import Metering.Proofs.Collector.Tracking

/-!
# Bounds on what is reported and kept

The limit of a collector is one on its live series (`WithinLimit`). It carries over to the points of
every report and to what is kept from one collection to the next, since each collection has at most
one point for a live series and keeps something of live series only. That holds after a shutdown too:
the series that it gave up have no part in a collection (`collect_attached`).

What is kept is found again by the sets of the series. A set that does not equal itself is not, so
that with each collection something more is kept of its series, and reported if reports are
cumulative; only delta reports are bounded whatever the sets.
-/

namespace Metering

variable {T : Type} {k : Kind} [Quantity T]

namespace Collector

variable {c : Collector T k}

omit [Quantity T] in
/-- There is no more kept than there are live series. -/
theorem Tracked.size_le (h : c.Tracked) : c.retained.size ≤ c.seriesCount := by
  have hkeys := h.keys.length_le
  simpa [Table.size, Table.keys, names, seriesCount] using hkeys

/-- Every report of a command stays within the limit. -/
theorem WithinLimit.size_le (h : c.WithinLimit) (hkeys : c.config.temporality = .delta ∨ c.Tracked)
    {command : Command T} {m : Metric T k} (hm : (c.perform command).1 = .reported (some m)) :
    m.size ≤ c.config.limit + 1 := by
  obtain ⟨sets, hsets, hpoints⟩ := exists_sets_of_reported h.toDistinct hkeys hm
  have hlength : m.size = sets.length := by
    simpa [Metric.size] using congrArg List.length hpoints
  have hlive := hsets.length_le
  rw [List.length_map] at hlive
  rw [hlength]
  exact Nat.le_trans hlive h.seriesCount_le

/-- Delta reports stay within the limit, whatever the sets are. -/
theorem delta_reports_stay_within_limit (sampling : SamplingPlan T) (stream : Stream)
    (config : ReaderConfig) (hdelta : config.temporality = .delta) (commands : List (Command T))
    {m : Metric T k}
    (hm : .reported (some m) ∈ ((new sampling stream config : Collector T k).run commands).1) :
    m.size ≤ config.limit + 1 := by
  obtain ⟨before, command, after, -, hreply⟩ := mem_replies hm
  have hconfig : ((new sampling stream config : Collector T k).run before).2.config = config :=
    congrArg Settings.config (settings_run _ before)
  have hwithin := (WithinLimit.new (k := k) sampling stream config).run before
  have hsize := hwithin.size_le (.inl (by rw [hconfig, hdelta])) hreply.symm
  rwa [hconfig] at hsize

/-- **The limit bounds what is reported and kept.** Take any commands that look only for sets which
equal themselves. No report among the replies has more points than the limit allows series, the
overflow series included. In the end, what is kept is kept of live series, and there is no more of it
than there are live series. -/
theorem reports_and_kept_stay_within_limit (sampling : SamplingPlan T) (stream : Stream)
    (config : ReaderConfig) {commands : List (Command T)}
    (hreflexive : ∀ command ∈ commands, command.IsReflexive config.filter) :
    let run := (new sampling stream config : Collector T k).run commands
    (∀ m, .reported (some m) ∈ run.1 → m.size ≤ config.limit + 1) ∧
      (∀ set ∈ run.2.retained.keys, ∃ s ∈ run.2.live, s.attributes = set) ∧
      run.2.retained.size ≤ run.2.seriesCount := by
  intro run
  have hwithin := WithinLimit.new (k := k) sampling stream config
  have htracked := Tracked.new (k := k) sampling stream config
  have hend : run.2.Tracked := hwithin.tracked_run htracked hreflexive
  refine ⟨fun m hm => ?_, fun set hset => ?_, hend.size_le⟩
  -- the report was made in a state that a prefix of the commands leads to
  · obtain ⟨before, command, after, rfl, hreply⟩ := mem_replies hm
    have hconfig : ((new sampling stream config : Collector T k).run before).2.config = config :=
      congrArg Settings.config (settings_run _ before)
    have hbefore := hwithin.tracked_run htracked fun other hother =>
      hreflexive other (List.mem_append_left _ hother)
    have hsize := (hwithin.run before).size_le (.inr hbefore) hreply.symm
    rwa [hconfig] at hsize
  · exact List.mem_map.1 (hend.keys_live.subset hset)

/-- One series at most is tracked beside the overflow series, and evicted after one idle collection:
the set `a = 1` comes back after it was evicted, and the last report is that of a shutdown. -/
def crowdedCommands : List (Command UInt64) :=
  [.record { value := 5, attributes := [⟨"a", .int 1⟩] },
    .record { value := 7, attributes := [⟨"a", .int 2⟩] },
    .collect 0 1,
    .collect 0 2,
    .record { value := 3, attributes := [⟨"a", .int 3⟩] },
    .record { value := 9, attributes := [⟨"a", .int 1⟩] },
    .shutdown 0 3]

def crowdedConfig : ReaderConfig :=
  { ReaderConfig.evicting with limit := 1, limit_pos := Nat.one_pos }

/-- The sizes of the reports among replies. -/
def reportSizes (replies : List (Reply T k)) : List Nat :=
  replies.filterMap fun
    | .reported (some m) => some m.size
    | _ => none

theorem reports_and_kept_stay_within_limit_crowded :
    let run := (new .none default crowdedConfig : Collector UInt64 (.sum true)).run crowdedCommands
    (∀ command ∈ crowdedCommands, command.IsReflexive crowdedConfig.filter) ∧
      reportSizes run.1 = [2, 2, 2] ∧
      (∀ m, .reported (some m) ∈ run.1 → m.size ≤ 2) ∧
      run.2.retained.size ≤ run.2.seriesCount := by
  intro run
  have hreflexive : ∀ command ∈ crowdedCommands, command.IsReflexive crowdedConfig.filter := by
    decide +kernel
  obtain ⟨hreports, -, hkept⟩ :=
    reports_and_kept_stay_within_limit (k := .sum true) .none default crowdedConfig hreflexive
  exact ⟨hreflexive, by decide +kernel, hreports, hkept⟩

/-- A set with a NaN inside a list of floats. -/
def lostSet : AttributeSet := .ofList [⟨"a", .floats [⟨0x7ff8000000000000⟩]⟩]

/-- A series is held under a set that does not equal itself. Each collection finds a recording in
it. -/
def lostCommands : List (Command UInt64) :=
  [.hold lostSet,
    .recordHeld 0 { value := 1 }, .collect 0 1,
    .recordHeld 0 { value := 1 }, .collect 0 2,
    .recordHeld 0 { value := 1 }, .collect 0 3]

/-- With such a set, what is kept grows with each collection, and so do the reports, beyond the
limit. -/
theorem lost_sets_outgrow_limit :
    let run := (new .none default { limit := 1 } : Collector UInt64 (.sum true)).run lostCommands
    reportSizes run.1 = [1, 2, 3] ∧ run.2.retained.size = 6 ∧ run.2.seriesCount = 1 := by
  decide +kernel

end Collector

end Metering
