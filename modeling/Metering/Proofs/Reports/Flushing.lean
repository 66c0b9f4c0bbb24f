import Metering.Proofs.Collector.Narrowing
import Metering.Proofs.Instrument.Reporting
import Metering.Proofs.Instrument.Shutdown
import Metering.Proofs.Reports.Exemplars

/-!
# The last reports

A shutdown gives every reader what it would have collected, and nothing comes after it
(`shutdown_flushes_once`). A reader of deltas thereby gets to see every recording once. Its collections,
and the shutdown in the end, cut the recordings into `cycles`, and each result `Reports` its own cycle:
the recordings are parted among the points, and each point has the numbers of its part. Nothing here
asks that sets equal themselves, since a delta report does not look for what was kept of a series.
-/

namespace Metering

variable {T : Type} {k : Kind} [Quantity T]

/-! ## What a result reports -/

/-- A point shows recordings: the numbers are theirs, and so are the attributes, as far as they are
allowed, unless the point is that of the overflow series. -/
structure Point.Shows (filter : KeyFilter) (rs : List (Recording T)) (p : Point T k) : Prop where
  nonempty : rs ≠ []
  reading : p.reading = k.read (k.tallyOf rs)
  attributes : ∀ r ∈ rs, p.attributes = (filter.apply r.attributes).toList ∨
    p.attributes = AttributeSet.overflow.toList

/-- A result reports recordings, each of them once: it is missing if there are none, and otherwise
they are parted among its points. -/
def Reports (k : Kind) (filter : KeyFilter) (rs : List (Recording T))
    (result : Option (Report T)) : Prop :=
  ∃ m : Option (Metric T k), result = m.map (⟨k, ·⟩) ∧ (m = none ↔ rs = []) ∧
    ∃ parts : List (List (Recording T)), parts.flatten.Perm rs ∧
      (∀ part ∈ parts, part.Sublist rs) ∧
      List.Forall₂ (Point.Shows filter) parts (m.elim [] (·.points))

namespace Collector

variable {c : Collector T k} {l : Ledger T}

/-- The recordings of the open cycle are in series with their attributes, or in the overflow
series. -/
def Posts (c : Collector T k) (l : Ledger T) : Prop :=
  ∀ e ∈ l.current, ∀ n ∈ c.names, n.1 = e.series →
    n.2.toList = (c.config.filter.apply e.recording.attributes).toList ∨
      n.2.toList = AttributeSet.overflow.toList

/-- A recording by attributes is posted, and the earlier ones stay where they are. -/
theorem Posts.record (hposts : c.Posts l) (h : c.Follows l) (r : Recording T) :
    (c.perform (.record r)).2.Posts (c.note l (.record r)) := by
  let set := c.config.filter.apply r.attributes
  have hconfig := config_perform c (.record r)
  have hnames : (c.perform (.record r)).2.names = (c.acquire set).2.names := names_record h.running r
  have hdistinct := (h.acquire set).1.distinct
  intro e he n hn hid
  rw [hnames] at hn
  rw [hconfig]
  rw [note, h.running] at he
  rcases List.mem_append.1 he with he | he
  · -- series that were opened since have other identities
    refine hposts e he n ?_ hid
    refine ((c.precedes_acquire set).names n hn).resolve_right fun hnew => ?_
    have hlt := h.lt_nextId e (List.mem_append_right _ he)
    omega
  · rw [List.mem_singleton.1 he] at hid ⊢
    obtain ⟨acquired, hacquired, hsame, htoList⟩ := c.toList_of_acquire set
    rwa [List.inj_on_of_nodup_map hdistinct.ids hn hacquired (hid.trans hsame.symm)]

/-- A delta collection reports the recordings of the open cycle. -/
theorem Follows.reports_collect (h : c.Follows l) (hposts : c.Posts l)
    (hdelta : c.config.temporality = .delta) (start time : Time) :
    Reports k c.config.filter (l.current.map (·.recording))
      ((c.collect start time).1.map (⟨k, ·⟩)) := by
  have hnone : (c.collect start time).1 = none ↔ ∀ s ∈ c.live, l.since s.id = [] := by
    have hiff := h.collect_eq_none (fun hc => by rw [hdelta] at hc; cases hc) start time
    rwa [hdelta] at hiff
  -- some live series holds each recording of the open cycle
  have hcurrent : (∀ s ∈ c.live, l.since s.id = []) ↔ l.current.map (·.recording) = [] := by
    rw [List.map_eq_nil_iff]
    refine ⟨fun hempty => ?_, fun hempty s _ => by rw [Ledger.since, hempty]; rfl⟩
    refine List.eq_nil_iff_forall_not_mem.2 fun e he => ?_
    obtain ⟨s, hs, hid⟩ := h.live e he
    exact received_eq_nil.1 (hempty s hs) e he hid.symm
  let reported := c.live.filter fun s => !(l.since s.id).isEmpty
  have hparts : (reported.map fun s => l.since s.id).flatten.Perm
      (l.current.map (·.recording)) := by
    have hlive : ∀ e ∈ l.current, e.series ∈ c.live.map (·.id) := fun e he => by
      obtain ⟨s, hs, hid⟩ := h.live e he
      exact hid ▸ List.mem_map_of_mem hs
    have hperm := perm_received h.distinct.live_ids hlive
    rw [List.map_map, ← List.flatten_filter_not_isEmpty, List.filter_map] at hperm
    exact hperm
  refine ⟨(c.collect start time).1, rfl, hnone.trans hcurrent, _, hparts, fun part hpart => ?_, ?_⟩
  · obtain ⟨s, -, rfl⟩ := List.mem_map.1 hpart
    exact received_sublist l.current s.id
  rw [List.forall₂_map_left_iff]
  -- point by point, each with the recordings of its series
  cases hm : (c.collect start time).1 with
  | none =>
    have hreported : reported = [] :=
      List.filter_eq_nil_iff.2 fun s hs => by simp [hnone.1 hm s hs]
    rw [hreported]
    exact .nil
  | some m =>
    rw [collect_fst h.distinct h.detached, accounts_delta h.distinct h.detached hdelta] at hm
    refine (c.report_points start time (fun s hs => h.yield_eq_none hs) hm).imp fun s p hsp => ?_
    obtain ⟨hs, a, ha, rfl⟩ := hsp
    have hyield := h.yield_tally hs
    rw [ha] at hyield
    have hne : l.since s.id ≠ [] := by
      intro hempty
      rw [if_pos hempty] at hyield
      cases hyield
    rw [if_neg hne] at hyield
    refine ⟨hne, congrArg k.read (Option.some.inj hyield), fun r hr => ?_⟩
    obtain ⟨e, he, hre⟩ := List.mem_filterMap.1 hr
    split at hre <;> cases hre
    rename_i hid
    exact hposts e he s.name (List.mem_map_of_mem hs) hid.symm

end Collector

/-! ## Cycles -/

namespace Instrument

omit [Quantity T] in
/-- The command is a collection of a reader. -/
def Command.collectsFor (reader : Nat) : Command T → Bool
  | .collect other _ _ => other == reader
  | .record _ | .shutdown _ _ => false

/-- The recordings that an aggregation took, cut at the collections of a reader. The last cycle is
still open. -/
def cycles (aggregation : Aggregation) (reader : Nat) (commands : List (Command T)) :
    List (List (Recording T)) :=
  (commands.splitOnP (Command.collectsFor reader)).map (accepted aggregation)

variable {aggregation : Aggregation} {reader : Nat}

omit [Quantity T] in
/-- To put nothing in front of the first part changes no part. -/
theorem modifyHead_nil_append {α : Type} (ls : List (List α)) : ls.modifyHead ([] ++ ·) = ls :=
  congrFun List.modifyHead_id ls

/-- What is accepted of a run is what is accepted of its commands. -/
theorem accepted_cons (aggregation : Aggregation) (command : Command T)
    (commands : List (Command T)) :
    accepted aggregation (command :: commands) =
      accepted aggregation [command] ++ accepted aggregation commands := by
  rw [accepted, accepted, accepted, ← List.filter_append, ← List.filterMap_append]
  rfl

/-- There is always an open cycle. -/
theorem cycles_ne_nil (aggregation : Aggregation) (reader : Nat) (commands : List (Command T)) :
    cycles aggregation reader commands ≠ [] :=
  fun hnil => List.splitOnP_ne_nil _ commands (List.map_eq_nil_iff.1 hnil)

/-- A collection of the reader begins another cycle. -/
theorem cycles_cons_of_collectsFor {command : Command T}
    (hcommand : command.collectsFor reader = true) (commands : List (Command T)) :
    cycles aggregation reader (command :: commands) = [] :: cycles aggregation reader commands := by
  rw [cycles, List.splitOnP_cons_eq_if_modifyHead, if_pos hcommand]
  rfl

/-- Commands that do not end a cycle go into the first one. -/
theorem cycles_cons {command : Command T} (hcommand : command.collectsFor reader = false)
    (commands : List (Command T)) :
    cycles aggregation reader (command :: commands) =
      (cycles aggregation reader commands).modifyHead (accepted aggregation [command] ++ ·) := by
  have hnot : ¬ command.collectsFor reader = true := by rw [hcommand]; exact Bool.false_ne_true
  rw [cycles, List.splitOnP_cons_eq_if_modifyHead, if_neg hnot, cycles]
  obtain ⟨first, rest, hsplit⟩ :=
    List.exists_cons_of_ne_nil (List.splitOnP_ne_nil (Command.collectsFor reader) commands)
  rw [hsplit]
  exact congrArg (· :: rest.map (accepted aggregation)) (accepted_cons aggregation command first)

/-- A recording is heard as it is, if it is accepted. -/
theorem heardBy_record_eq_some {r : Recording T} {heard : Metering.Command T}
    (hheard : Command.heardBy aggregation reader (.record r) = some heard) :
    heard = .record r ∧ aggregation.accepts r.value = true := by
  by_cases haccepts : aggregation.accepts r.value = true
  · rw [heardBy_record_of_accepts reader haccepts] at hheard
    exact ⟨(Option.some.inj hheard).symm, haccepts⟩
  · rw [heardBy_record_of_rejects reader haccepts] at hheard
    cases hheard

/-- A collection is heard by its own reader. -/
theorem heardBy_collect_eq_some {other : Nat} {start time : Time} {heard : Metering.Command T}
    (hheard : Command.heardBy aggregation reader (.collect other start time) = some heard) :
    heard = .collect start time ∧ other = reader := by
  rw [Command.heardBy] at hheard
  split at hheard
  · exact ⟨(Option.some.inj hheard).symm, ‹_›⟩
  · cases hheard

/-- A recording that the aggregation takes is the first of the first cycle. -/
theorem cycles_cons_record {r : Recording T} (haccepts : aggregation.accepts r.value = true)
    (commands : List (Command T)) :
    cycles aggregation reader (.record r :: commands) =
      (cycles aggregation reader commands).modifyHead ([r] ++ ·) := by
  have haccepted : accepted aggregation [Command.record r] = [r] :=
    List.filter_eq_self.2 fun other hother => List.mem_singleton.1 hother ▸ haccepts
  rw [cycles_cons rfl, haccepted]

/-- What a reader does not hear of has no part in its cycles. -/
theorem cycles_cons_of_unheard {command : Command T}
    (hheard : command.heardBy aggregation reader = none) (commands : List (Command T)) :
    cycles aggregation reader (command :: commands) = cycles aggregation reader commands := by
  have hcommand : command.collectsFor reader = false := by
    cases command with
    | collect other start time =>
      refine beq_eq_false_iff_ne.2 ?_
      rintro rfl
      rw [heardBy_collect] at hheard
      cases hheard
    | record r => rfl
    | shutdown start time => rfl
  have hnone : accepted aggregation [command] = [] := by
    have hrecordings := recordings_heard aggregation reader [command]
    rw [List.filterMap_cons_none hheard] at hrecordings
    exact hrecordings.symm
  rw [cycles_cons hcommand, hnone, modifyHead_nil_append]

/-- Every recording is in one of the cycles. -/
theorem flatten_cycles (aggregation : Aggregation) (reader : Nat) (commands : List (Command T)) :
    (cycles aggregation reader commands).flatten = accepted aggregation commands := by
  induction commands with
  | nil => rfl
  | cons command rest ih =>
    rw [accepted_cons, ← ih]
    -- a collection accepts nothing and opens a cycle; anything else goes into the first one
    cases hcommand : command.collectsFor reader with
    | true =>
      have hnone : accepted aggregation [command] = [] := by
        cases command with
        | collect other start time => rfl
        | record r => cases hcommand
        | shutdown start time => cases hcommand
      rw [cycles_cons_of_collectsFor hcommand, hnone]
      rfl
    | false =>
      rw [cycles_cons hcommand]
      obtain ⟨first, more, hcycles⟩ :=
        List.exists_cons_of_ne_nil (cycles_ne_nil aggregation reader rest)
      rw [hcycles]
      exact List.append_assoc _ _ _

/-! ## All results of a reader -/

variable {i : Instrument T} {c : Collector T k} {l : Ledger T}

/-- Until a shutdown, and with it, the results of a reader report cycle after cycle. The recordings of
the cycle that was open at the beginning are in the first one. -/
theorem Serves.reports_cycles (hserves : i.Serves reader c) (h : c.Follows l) (hposts : c.Posts l)
    (hdelta : c.config.temporality = .delta) {commands : List (Command T)}
    (hshutdown : ∀ start time, .shutdown start time ∉ commands) (start time : Time) :
    List.Forall₂ (Reports k c.config.filter)
      ((cycles i.aggregation reader commands).modifyHead (l.current.map (·.recording) ++ ·))
      (i.results reader (commands ++ [.shutdown start time])) := by
  induction commands generalizing i c l with
  | nil =>
    have hheard : Command.heardBy i.aggregation reader (.shutdown start time : Command T) =
        some (.shutdown start time) := rfl
    have hanswer := (hserves.perform_of_heard hheard).2
    have hlast := Collector.shutdown_fst h.running start time
    have hreports := h.reports_collect hposts hdelta start time
    rw [List.nil_append, results_cons, hanswer]
    show List.Forall₂ (Reports k c.config.filter) [l.current.map (·.recording) ++ []]
      [(c.shutdown start time).1.map (Sigma.mk k)]
    rw [hlast, List.append_nil]
    exact .cons hreports .nil
  | cons command rest ih =>
    have hrest : ∀ start time, .shutdown start time ∉ rest := fun start time hmem =>
      hshutdown start time (List.mem_cons_of_mem _ hmem)
    have haggregation := i.aggregation_perform command
    rw [List.cons_append, results_cons]
    cases hheard : command.heardBy i.aggregation reader with
    | none =>
      obtain ⟨hstep, hanswer⟩ := hserves.perform_of_unheard hheard
      have hreports := ih hstep h hposts hdelta hrest
      rw [haggregation] at hreports
      rw [hanswer, cycles_cons_of_unheard hheard]
      exact hreports
    | some heard =>
      obtain ⟨hstep, hanswer⟩ := hserves.perform_of_heard hheard
      have hconfig := Collector.config_perform c heard
      rw [hanswer]
      cases command with
      | record r =>
        obtain ⟨rfl, haccepts⟩ := heardBy_record_eq_some hheard
        have hadmits : c.Admits (.record r) := trivial
        have hreports := ih hstep (h.perform hadmits) (hposts.record h r) (hconfig ▸ hdelta) hrest
        have hcurrent : (c.note l (.record r)).current.map (·.recording) =
            l.current.map (·.recording) ++ [r] := by
          rw [Collector.note, h.running]
          exact List.map_append
        rw [haggregation, hconfig, hcurrent] at hreports
        rw [cycles_cons_record haccepts, List.modifyHead_modifyHead]
        simp only [Function.comp_def, ← List.append_assoc]
        exact hreports
      | collect other start' time' =>
        obtain ⟨rfl, rfl⟩ := heardBy_collect_eq_some hheard
        have hadmits : c.Admits (.collect start' time') := trivial
        have hreport := h.reports_collect hposts hdelta start' time'
        have hposts' : (c.collect start' time').2.Posts l.close := fun e he =>
          absurd he List.not_mem_nil
        have hreports := ih hstep (h.perform hadmits) hposts' (hconfig ▸ hdelta) hrest
        rw [haggregation, hconfig] at hreports
        have hcollects : (Command.collect other start' time' : Command T).collectsFor other = true :=
          beq_self_eq_true other
        rw [cycles_cons_of_collectsFor hcollects, List.modifyHead_cons, List.append_nil]
        -- the next cycle begins with nothing in it
        exact .cons hreport (modifyHead_nil_append (cycles i.aggregation other rest) ▸ hreports)
      | shutdown start' time' => exact absurd List.mem_cons_self (hshutdown start' time')

/-- **Shutting down flushes once.** Take any commands without a shutdown, and then a shutdown. It has as
many results as there are readers, each of them what the reader would have collected instead. With it,
the results of a reader of deltas report all recordings that the aggregation took, cycle after cycle,
each recording once. Whatever is done later is met with silence. An instrument that keeps nothing is no
exception, but for there being nothing to report. -/
theorem shutdown_flushes_once {stream : Stream} {filter : ExemplarFilter} {parallelism : Nat}
    {configs : List ReaderConfig} (hnew : new stream aggregation filter parallelism configs = .ok i)
    {before : List (Command T)} (hshutdown : ∀ start time, .shutdown start time ∉ before)
    (start time : Time) :
    let closing := (i.run before).2
    closing.readers.count = configs.length ∧
    (closing.shutdown start time).1 =
      (List.range configs.length).map (fun reader => (closing.collect reader start time).1) ∧
    (∀ k, aggregation.kind? = .ok (some k) → ∀ reader config, configs[reader]? = some config →
      config.temporality = .delta →
        (cycles aggregation reader before).flatten = accepted aggregation before ∧
        List.Forall₂ (Reports k config.filter) (cycles aggregation reader before)
          (i.results reader (before ++ [.shutdown start time]))) ∧
    ∀ later, ((closing.shutdown start time).2.run later).1 =
      later.map (Command.silence configs.length) := by
  intro closing
  obtain ⟨hcount, hrunning⟩ := readers_new hnew
  have hcount : closing.readers.count = configs.length := (count_run i before).trans hcount
  have hrunning : closing.readers.Running := running_run hrunning hshutdown
  refine ⟨hcount, hcount ▸ Readers.shutdown_eq_map_collect hrunning start time, ?_, fun later => ?_⟩
  -- the delta readers: what they were told to do is their own run of a single collector
  · intro k hkind reader config hconfig hdelta
    refine ⟨flatten_cycles aggregation reader before, ?_⟩
    rcases new_cases hnew with ⟨rfl, -⟩ | ⟨k', sampling, -, hkind', -, heq⟩
    · cases hkind
    · obtain rfl : k = k' := Option.some.inj (Except.ok.inj (hkind.symm.trans hkind'))
      have hserves : i.Serves reader (Collector.new sampling stream config : Collector T k) :=
        heq ▸ serves_new stream aggregation sampling hconfig
      have haggregation : i.aggregation = aggregation := congrArg Instrument.aggregation heq
      have hreports := hserves.reports_cycles (.new sampling stream config) nofun hdelta hshutdown
        start time
      rw [haggregation] at hreports
      exact modifyHead_nil_append (cycles aggregation reader before) ▸ hreports
  · have hclosed : (closing.shutdown start time).2.readers.Closed :=
      hrunning.shutdown fun k c hc => Collector.closed_shutdown hc start time
    have hcount : (closing.shutdown start time).2.readers.count = configs.length :=
      (closing.readers.count_shutdown start time).trans hcount
    rw [run_of_closed hclosed later, hcount]

/-- The first series is collected before it is recorded into again; the set `b = 1` comes too late for a
series of its own, and the negative measurement is not taken. -/
def flushedCommands : List (Command Int64) :=
  [.record { value := 5, attributes := [⟨"a", .int 1⟩] },
    .collect 0 0 1,
    .record { value := 7, attributes := [⟨"a", .int 1⟩] },
    .record { value := 2, attributes := [⟨"b", .int 1⟩] },
    .record { value := -3 },
    .collect 1 0 2]

/-- Two readers, one of delta reports with room for a single series: the flush has its last cycle,
with the second series in the overflow, and everything for the other reader, and nothing comes after
it. -/
theorem shutdown_flushes_once_overflowing :
    let values : Option (Report Int64) → List Int64
      | some ⟨.sum _, m⟩ => m.points.map (·.reading.value)
      | _ => []
    let delta : ReaderConfig := { temporality := .delta, limit := 1 }
    ∃ i, new default (.sum true) .alwaysOff 1 [delta, {}] = .ok i ∧
      (∀ start time, .shutdown start time ∉ flushedCommands) ∧
      ((i.run flushedCommands).2.shutdown 0 3).1.map values = [[7, 2], [12, 2]] ∧
      (cycles (.sum true) 0 flushedCommands).map (·.map (·.value)) = [[5], [7, 2]] ∧
      List.Forall₂ (Reports (.sum true) delta.filter) (cycles (.sum true) 0 flushedCommands)
        (i.results 0 (flushedCommands ++ [.shutdown 0 3])) ∧
      ((((i.run flushedCommands).2.shutdown 0 3).2.run
        [.record { value := 1 }, .collect 0 0 4, .shutdown 0 5]).1 =
          [.done, .reported none, .flushed [none, none]]) := by
  intro values delta
  have hvalues : (new default (.sum true) .alwaysOff 1 [delta, {}]).toOption.map
      (fun i => ((i.run flushedCommands).2.shutdown 0 3).1.map values) =
        some [[7, 2], [12, 2]] := by decide +kernel
  obtain ⟨i, hi, hvalues⟩ := Option.map_eq_some_iff.1 hvalues
  have hnew := eq_ok_of_toOption hi
  have hshutdown : ∀ start time, .shutdown start time ∉ flushedCommands := by
    simp [flushedCommands]
  obtain ⟨-, -, hreports, hlater⟩ := shutdown_flushes_once hnew hshutdown 0 3
  exact ⟨i, hnew, hshutdown, hvalues, by decide +kernel, (hreports _ rfl 0 delta rfl rfl).2,
    hlater _⟩

end Instrument

end Metering
