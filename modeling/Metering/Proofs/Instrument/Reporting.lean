import Metering.Proofs.Boundaries
import Metering.Proofs.Collector.Pointwise
import Metering.Proofs.Instrument.Hearing

/-!
# Reports of an instrument

Whatever was done with an instrument before, a report that a reader gets is one that its collector
makes of what the reader heard (`exists_collect_of_answer`). There was no shutdown among it, so the
ledger of the collector has all recordings that the aggregation took, in their order. -/

namespace Metering

/-- A histogram is over boundaries without fault. -/
theorem Aggregation.exists_boundaries {k : Kind} {values : List Binary64} {recordsExtremes : Bool}
    (h : (Aggregation.histogram values recordsExtremes).kind? = .ok (some k)) :
    ∃ boundaries : Boundaries, boundaries.values = values ∧
      k = .histogram boundaries recordsExtremes := by
  rw [kind?] at h
  split at h
  · rename_i boundaries hboundaries
    cases h
    exact ⟨boundaries, Boundaries.values_of_ofList hboundaries, rfl⟩
  · cases h

/-- What succeeds with a value is that value. -/
theorem eq_ok_of_toOption {ε α : Type} {x : Except ε α} {a : α} (h : x.toOption = some a) :
    x = .ok a := by
  cases x with
  | error e => cases h
  | ok b =>
    cases h
    rfl

/-- Whatever answers with a report is a report. -/
theorem Reply.exists_reported {T : Type} {k : Kind} {reply : Reply T k} {report : Report T}
    (h : reply.answer? = some (some report)) : ∃ m, reply = .reported (some m) := by
  cases reply with
  | reported m =>
    obtain ⟨m, rfl, -⟩ := Option.map_eq_some_iff.1 (Option.some.inj h)
    exact ⟨m, rfl⟩
  | done => cases h
  | holding id => cases h
  | drained a => cases h

namespace Instrument

variable {T : Type} [Quantity T] {k : Kind} {i : Instrument T} {reader : Nat} {c : Collector T k}

/-- No run changes what is aggregated. -/
theorem aggregation_run (i : Instrument T) (commands : List (Command T)) :
    (i.run commands).2.aggregation = i.aggregation := by
  induction commands generalizing i with
  | nil => rfl
  | cons command rest ih => exact (ih _).trans (i.aggregation_perform command)

/-- After any commands, the instrument holds the collector as it is after the reader's share. -/
theorem Serves.run (h : i.Serves reader c) (commands : List (Command T)) :
    (i.run commands).2.Serves reader
      (c.run (commands.filterMap (Command.heardBy i.aggregation reader))).2 := by
  induction commands generalizing i c with
  | nil => exact h
  | cons command rest ih =>
    cases hheard : command.heardBy i.aggregation reader with
    | none =>
      have hserves := ih (h.perform_of_unheard hheard).1
      rw [aggregation_perform] at hserves
      rw [List.filterMap_cons_none hheard]
      exact hserves
    | some heard =>
      have hserves := ih (h.perform_of_heard hheard).1
      rw [aggregation_perform] at hserves
      rw [List.filterMap_cons_some hheard]
      exact hserves

/-- Whatever was done before, a command answers a reader as its share answers the collector. -/
theorem Serves.answer_eq (h : i.Serves reader c) (before : List (Command T))
    (command : Command T) :
    ((i.run before).2.perform command).1.answer? reader command =
      (command.heardBy i.aggregation reader).bind fun heard =>
        ((c.run (before.filterMap (Command.heardBy i.aggregation reader))).2.perform
          heard).1.answer? := by
  have hserves := h.run before
  have haggregation := aggregation_run i before
  cases hheard : command.heardBy i.aggregation reader with
  | none => exact (hserves.perform_of_unheard (haggregation ▸ hheard)).2
  | some heard => exact (hserves.perform_of_heard (haggregation ▸ hheard)).2

/-- A run brings no reader in. -/
theorem readers_lack_run (h : i.readers.Lacks reader) (commands : List (Command T)) :
    (i.run commands).2.readers.Lacks reader := by
  induction commands generalizing i with
  | nil => exact h
  | cons command rest ih => exact ih (perform_of_lacks h command).1

/-- What a reader hears of an instrument is recordings, collections and shutdowns. -/
theorem plain_or_shutdown_of_heardBy {aggregation : Aggregation} {command : Command T}
    {heard : Metering.Command T} (hheard : command.heardBy aggregation reader = some heard) :
    heard.IsPlain ∨ heard.IsShutdown := by
  cases command with
  | record r =>
    rw [Command.heardBy] at hheard
    split at hheard <;> cases hheard
    exact .inl trivial
  | collect other start time =>
    rw [Command.heardBy] at hheard
    split at hheard <;> cases hheard
    exact .inl trivial
  | shutdown start time =>
    cases hheard
    exact .inr trivial

/-- As long as the reader heard of no shutdown, whatever it gets is what its collector collects. -/
theorem exists_collect_of_plain {stream : Stream} {aggregation : Aggregation}
    {filter : ExemplarFilter} {parallelism : Nat} {configs : List ReaderConfig}
    (hnew : new stream aggregation filter parallelism configs = .ok i) {config : ReaderConfig}
    (hconfig : configs[reader]? = some config) {sampling : SamplingPlan T}
    (hkind : aggregation.kind? = .ok (some k))
    (hsampling : Aggregation.sampling filter (max parallelism 1) k = .ok sampling)
    {before : List (Command T)}
    (hplain : ∀ heard ∈ before.filterMap (Command.heardBy aggregation reader), heard.IsPlain)
    {command : Command T} {answer : Option (Report T)}
    (hanswer : ((i.run before).2.perform command).1.answer? reader command = some answer) :
    ∃ start time, answer = (((Collector.new sampling stream config : Collector T k).run
      (before.filterMap (Command.heardBy aggregation reader))).2.collect start time).1.map (⟨k, ·⟩) := by
  -- a drop aggregation has no kind, so the reader has a collector of its own
  rcases new_cases hnew with ⟨rfl, -⟩ | ⟨k', sampling', -, hkind', hsampling', rfl⟩
  · cases hkind
  · obtain rfl : k = k' := Option.some.inj (Except.ok.inj (hkind.symm.trans hkind'))
    obtain rfl : sampling = sampling' := Except.ok.inj (hsampling.symm.trans hsampling')
    have hserves : Serves ⟨stream, aggregation, .collecting k (configs.map (.new sampling stream))⟩
        reader (Collector.new sampling stream config : Collector T k) :=
      serves_new stream aggregation sampling hconfig
    rw [hserves.answer_eq before command, Option.bind_eq_some_iff] at hanswer
    obtain ⟨heard, hheard, hanswer⟩ := hanswer
    let first : Collector T k := .new sampling stream config
    have hrunning := ((Collector.Follows.new (k := k) sampling stream config).run
      (first.admitsAll_of_plain hplain)).running
    have hcommand := plain_or_shutdown_of_heardBy hheard
    -- a recording is not answered, and before a shutdown the last report is that of a collection
    cases heard with
    | record r => cases hanswer
    | collect start time => exact ⟨start, time, (Option.some.inj hanswer).symm⟩
    | shutdown start time =>
      refine ⟨start, time, ?_⟩
      rw [← Collector.shutdown_fst hrunning start time]
      exact (Option.some.inj hanswer).symm
    | _ => exact (hcommand.elim id id).elim

/-- **Reports and collectors.** A report that a reader of a new instrument gets, after any commands,
is a metric that the reader's collector collects after what the reader heard of, and that was
recordings and collections only. -/
theorem exists_collect_of_answer {stream : Stream} {aggregation : Aggregation}
    {filter : ExemplarFilter} {parallelism : Nat} {configs : List ReaderConfig}
    (hnew : new stream aggregation filter parallelism configs = .ok i) {config : ReaderConfig}
    (hconfig : configs[reader]? = some config) {before : List (Command T)} {command : Command T}
    {report : Report T}
    (hreport : ((i.run before).2.perform command).1.answer? reader command = some (some report)) :
    ∃ (k : Kind) (sampling : SamplingPlan T) (m : Metric T k),
      aggregation.kind? = .ok (some k) ∧
      Aggregation.sampling filter (max parallelism 1) k = .ok sampling ∧ report = ⟨k, m⟩ ∧
      let heard := before.filterMap (Command.heardBy aggregation reader)
      (∀ other ∈ heard, other.IsPlain) ∧ ∃ start time,
        (((Collector.new sampling stream config : Collector T k).run heard).2.collect start
          time).1 = some m := by
  -- nobody answers for a drop aggregation
  rcases new_cases hnew with ⟨rfl, rfl⟩ | ⟨k, sampling, -, hkind, hsampling, heq⟩
  · have hlacks : (Readers.idle configs.length : Readers T).Lacks reader := trivial
    have hnone := (perform_of_lacks (readers_lack_run (i := ⟨stream, .drop, _⟩) hlacks before)
      command).2 _ hreport
    cases hnone
  · have hserves : i.Serves reader (Collector.new sampling stream config : Collector T k) :=
      heq ▸ serves_new stream aggregation sampling hconfig
    have haggregation : i.aggregation = aggregation := congrArg Instrument.aggregation heq
    have hanswer := hserves.answer_eq before command
    rw [hreport, haggregation, eq_comm, Option.bind_eq_some_iff] at hanswer
    obtain ⟨heard, hheard, hanswer⟩ := hanswer
    obtain ⟨m, hm⟩ := Reply.exists_reported hanswer
    -- the reader has an answer, so there was no shutdown before
    have hplain : ∀ other ∈ before.filterMap (Command.heardBy aggregation reader),
        other.IsPlain := by
      refine (Collector.Follows.new sampling stream config).plain_of_reported (fun other hother => ?_)
        (plain_or_shutdown_of_heardBy hheard) hm
      obtain ⟨_, -, heq⟩ := List.mem_filterMap.1 hother
      exact plain_or_shutdown_of_heardBy heq
    obtain ⟨start, time, hcollect⟩ :=
      exists_collect_of_plain hnew hconfig hkind hsampling hplain hreport
    obtain ⟨m, hm, rfl⟩ := Option.map_eq_some_iff.1 hcollect.symm
    exact ⟨k, sampling, m, hkind, hsampling, rfl, hplain, start, time, hm⟩

/-- A cumulative reader that evicts nothing gets a report whenever it asks, once there was one, until a
shutdown. -/
theorem exists_shutdown_of_none {stream : Stream} {aggregation : Aggregation}
    {filter : ExemplarFilter} {parallelism : Nat} {configs : List ReaderConfig}
    (hnew : new stream aggregation filter parallelism configs = .ok i) {config : ReaderConfig}
    (hconfig : configs[reader]? = some config) (hcumulative : config.temporality = .cumulative)
    (hidle : config.maxIdle = none) {before between : List (Command T)} {earlier later : Command T}
    (hreflexive : ∀ r, .record r ∈ before ++ earlier :: between →
      (config.filter.apply r.attributes == config.filter.apply r.attributes) = true)
    {report : Report T}
    (hearlier : ((i.run before).2.perform earlier).1.answer? reader earlier = some (some report))
    (hlater : ((i.run (before ++ earlier :: between)).2.perform later).1.answer? reader later =
      some none) : ∃ start time, .shutdown start time ∈ earlier :: between := by
  by_contra hshutdown
  obtain ⟨k, sampling, m, hkind, hsampling, rfl, hplain, start, time, hm⟩ :=
    exists_collect_of_answer hnew hconfig hearlier
  let first : Collector T k := .new sampling stream config
  let heard := before.filterMap (Command.heardBy aggregation reader)
  let more := (earlier :: between).filterMap (Command.heardBy aggregation reader)
  have hheard : (before ++ earlier :: between).filterMap (Command.heardBy aggregation reader) =
      heard ++ more := List.filterMap_append
  have hmore : ∀ other ∈ more, other.IsPlain :=
    plain_heard _ _ fun start time hmem => hshutdown ⟨start, time, hmem⟩
  have hall : ∀ other ∈ heard ++ more, other.IsPlain := fun other hother =>
    (List.mem_append.1 hother).elim (hplain other) (hmore other)
  obtain ⟨start', time', hcollect⟩ :=
    exists_collect_of_plain hnew hconfig hkind hsampling (hheard ▸ hall) hlater
  rw [hheard, Collector.run_append] at hcollect
  -- the collector has what the earlier report was made of, and collects it again
  have hfirst : first.Follows {} := .new sampling stream config
  have hadmits := first.admitsAll_of_plain hplain
  have hreflexive' := reflexive_heard aggregation reader hreflexive
  rw [hheard] at hreflexive'
  have hretains := (Collector.Retains.new sampling stream config).run hfirst hadmits fun other hother =>
    hreflexive' other (List.mem_append_left _ hother)
  have hconfig' : (first.run heard).2.config = config := Collector.config_run first heard
  refine (hfirst.run hadmits).collect_ne_none hretains (hconfig' ▸ hcumulative) (hconfig' ▸ hidle)
    hmore ?_ (hm ▸ Option.some_ne_none m) start' time' (Option.map_eq_none_iff.1 hcollect.symm)
  rw [hconfig']
  exact fun other hother => hreflexive' other (List.mem_append_right _ hother)

/-! ## The recordings behind a report -/

/-- The recordings that an aggregation took, in their order. -/
def accepted (aggregation : Aggregation) (commands : List (Command T)) : List (Recording T) :=
  (commands.filterMap Command.recording?).filter fun r => aggregation.accepts r.value

/-- No more recordings are accepted than are made. -/
theorem length_accepted_le (aggregation : Aggregation) (commands : List (Command T)) :
    (accepted aggregation commands).length ≤ (commands.filterMap Command.recording?).length :=
  List.length_filter_le _ _

/-- An aggregation takes nothing but numbers. -/
theorem isNaN_of_mem_accepted {aggregation : Aggregation} {commands : List (Command T)}
    {r : Recording T} (hr : r ∈ accepted aggregation commands) : Quantity.isNaN r.value = false := by
  have haccepts : aggregation.accepts r.value = true := (List.mem_filter.1 hr).2
  rw [Aggregation.accepts, Bool.and_eq_true, Bool.not_eq_true'] at haccepts
  exact haccepts.1

/-- The ledger of a reader's collector has the recordings that the aggregation took. -/
theorem entries_heard {aggregation : Aggregation} (sampling : SamplingPlan T) (stream : Stream)
    (config : ReaderConfig) {commands : List (Command T)}
    (hplain : ∀ heard ∈ commands.filterMap (Command.heardBy aggregation reader), heard.IsPlain) :
    ((Collector.new sampling stream config : Collector T k).ledger {}
        (commands.filterMap (Command.heardBy aggregation reader))).entries.map (·.recording) =
      accepted aggregation commands := by
  have hentries := (Collector.Follows.new (k := k) sampling stream config).entries_ledger
    (Collector.admitsAll_of_plain _ hplain)
  rw [recordings_heard] at hentries
  exact hentries

/-- What holds of every series that the collector of a reader accounts for holds point by point of
what it collects. -/
theorem pointwise_heard {aggregation : Aggregation} {sampling : SamplingPlan T} {stream : Stream}
    {config : ReaderConfig} {before : List (Command T)}
    (hplain : ∀ heard ∈ before.filterMap (Command.heardBy aggregation reader), heard.IsPlain)
    (hreflexive : config.temporality = .cumulative → ∀ r, .record r ∈ before →
      (config.filter.apply r.attributes == config.filter.apply r.attributes) = true)
    {start time : Time} {m : Metric T k}
    (hm : (((Collector.new sampling stream config : Collector T k).run
      (before.filterMap (Command.heardBy aggregation reader))).2.collect start time).1 = some m)
    {P : List (Recording T) → Point T k → Prop}
    (hP : ∀ (c : Collector T k) (l : Ledger T), c.sampling = sampling → c.Follows l →
      ∀ s ∈ c.live,
        (l.behind config.temporality s.id).Sublist (accepted aggregation before) →
        ∀ a, c.account l s config.temporality = some a →
          P (l.behind config.temporality s.id) (a.point s.attributes)) :
    (Collector.new sampling stream config : Collector T k).Pointwise
      (before.filterMap (Command.heardBy aggregation reader)) m P := by
  let first : Collector T k := .new sampling stream config
  let heard := before.filterMap (Command.heardBy aggregation reader)
  have hfirst : first.Follows {} := .new sampling stream config
  have hadmits : first.AdmitsAll heard := first.admitsAll_of_plain hplain
  have hretains (hcumulative : config.temporality = .cumulative) :
      (first.run heard).2.Retains (first.ledger {} heard) :=
    (Collector.Retains.new sampling stream config).run hfirst hadmits
      (reflexive_heard aggregation reader (hreflexive hcumulative))
  have hsampling : (first.run heard).2.sampling = sampling :=
    congrArg Collector.Settings.sampling (Collector.settings_run first heard)
  -- the recordings behind a point are some of those that were accepted
  refine Collector.Follows.pointwise_of_collect hfirst hadmits hretains hm fun s hs a ha => ?_
  have hbehind := (first.ledger {} heard).behind_sublist config.temporality s.id
  rw [entries_heard sampling stream config hplain] at hbehind
  exact hP _ _ hsampling (hfirst.run hadmits) s hs hbehind a ha

end Instrument

end Metering
