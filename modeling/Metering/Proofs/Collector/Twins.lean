import Metering.Proofs.Collector.Accounts
import Metering.Proofs.Difference

/-!
# Delta and cumulative collectors of the same recordings

Two collectors that take the same recordings, without evictions, open the same series and hand them
the same recordings, whenever they collect (`Collector.same_entries`). So if one of them reports
deltas and the other one cumulatively, the totals of the latter merge the deltas
(`Collector.Accounted.merges`), and the deltas bridge totals in a row (`Collector.Follows.bridged`).
-/

namespace Metering.Collector

variable {T : Type} {k : Kind} [Quantity T]

/-- Collectors that take the same recordings have the same names and the same entries, if they track
equally many series, allow the same keys and evict none. -/
theorem same_entries (sampling : SamplingPlan T) (stream : Stream) {config config' : ReaderConfig}
    (hlimit : config.limit = config'.limit) (hfilter : config.filter = config'.filter)
    (hidle : config.maxIdle = none) (hidle' : config'.maxIdle = none)
    {commands commands' : List (Command T)} (hplain : ∀ command ∈ commands, command.IsPlain)
    (hplain' : ∀ command ∈ commands', command.IsPlain)
    (hrecordings : commands.filterMap Command.recording? = commands'.filterMap Command.recording?) :
    ((new sampling stream config : Collector T k).run commands).2.names =
        ((new sampling stream config' : Collector T k).run commands').2.names ∧
      ((new sampling stream config : Collector T k).ledger {} commands).entries =
        ((new sampling stream config' : Collector T k).ledger {} commands').entries := by
  -- names and entries are those of one roster, which the recordings are rolled into
  have hroll := (Follows.new (k := k) sampling stream config).roll_run hidle hplain
  have hroll' := (Follows.new (k := k) sampling stream config').roll_run hidle' hplain'
  have hroster : (new sampling stream config : Collector T k).roster =
      (new sampling stream config' : Collector T k).roster := by
    show Roster.mk config.limit [] 0 = Roster.mk config'.limit [] 0
    rw [hlimit]
  have hkeys : (new sampling stream config : Collector T k).config.filter =
      (new sampling stream config' : Collector T k).config.filter := hfilter
  rw [hrecordings, hroster, hkeys, ← hroll'] at hroll
  exact ⟨congrArg (fun s => s.1.names) hroll, congrArg Prod.snd hroll⟩

/-- Further recordings leave the names where they are. -/
theorem names_subset (sampling : SamplingPlan T) (stream : Stream) {config : ReaderConfig}
    (hidle : config.maxIdle = none) {commands commands' : List (Command T)}
    (hplain : ∀ command ∈ commands, command.IsPlain)
    (hplain' : ∀ command ∈ commands', command.IsPlain) (rs : List (Recording T))
    (hrecordings : commands'.filterMap Command.recording? =
      commands.filterMap Command.recording? ++ rs) :
    ∀ n ∈ ((new sampling stream config : Collector T k).run commands).2.names,
      n ∈ ((new sampling stream config : Collector T k).run commands').2.names := by
  have hroll := (Follows.new (k := k) sampling stream config).roll_run hidle hplain
  have hroll' := (Follows.new (k := k) sampling stream config).roll_run hidle hplain'
  -- the roster of the longer run goes on from that of the shorter one, and only adds names
  rw [hrecordings, Roster.roll, List.foldl_append] at hroll'
  rw [Roster.roll] at hroll
  rw [← hroll] at hroll'
  intro n hn
  have hnames : ((new sampling stream config : Collector T k).run commands').2.names =
      (Roster.roll config.filter
        (((new sampling stream config : Collector T k).run commands).2.roster,
          ((new sampling stream config : Collector T k).ledger {} commands).entries) rs).1.names :=
    congrArg (fun s => s.1.names) hroll'
  rw [hnames]
  exact (Roster.names_roll _ _ rs).subset hn

/-! ## Totals and deltas -/

/-- Totals that merge deltas: one for every set with a delta, with the numbers of all deltas of the
set, merged in their order. -/
structure Merges (deltas totals : List (AttributeSet × Accumulation T k)) : Prop where
  distinct : totals.Pairwise fun e e' => (e.1 == e'.1) = false
  sets : ∀ set, (∃ e ∈ totals, e.1 = set) ↔ ∃ e ∈ deltas, e.1 = set
  tally : ∀ e ∈ totals, ∃ a,
    Accumulation.joinAll ((deltas.filter (·.1 == e.1)).map (·.2)) = some a ∧ e.2.tally = a.tally

/-- Totals in a row that the deltas of the round in between bridge: set by set, and where there is no
delta nothing changed. -/
structure Bridged [Quantity.Word T] (previous round current : List (AttributeSet × Accumulation T k)) :
    Prop where
  delta : ∀ set p a t, (set, p) ∈ previous → (set, a) ∈ round → (set, t) ∈ current →
    k.Bridges p.tally t.tally a.tally
  none : ∀ set p t, (set, p) ∈ previous → (set, t) ∈ current → (∀ a, (set, a) ∉ round) →
    k.Unchanged p.tally t.tally

section

variable [Quantity.Ranked T] {c c' : Collector T k} {l l' : Ledger T}

/-- The deltas of a name make the same tally as what a collector yields that took the same
recordings. -/
theorem Accounted.joinAll_tally [Quantity.Modular T]
    {deltas : List (AttributeSet × Accumulation T k)} (hdeltas : c.Accounted l.close deltas)
    (hentries : l.entries = l'.entries)
    (htimes : (l'.entries.map (·.recording)).Pairwise (·.time < ·.time)) {n : Nat × AttributeSet}
    (hn : n ∈ c.names) :
    (Accumulation.joinAll ((deltas.filter (·.1 == n.2)).map (·.2))).map (·.tally) =
      (Accumulation.joinAll (c'.yields l'.close n)).map (·.tally) := by
  have hreceived : (received l'.entries n.1).Pairwise (·.time < ·.time) :=
    htimes.sublist (received_sublist l'.entries n.1)
  rw [hdeltas.yields n hn, c'.joinAll_yields_tally_of_modular l' n fun _ => hreceived, ← hentries]
  exact c.joinAll_yields_tally_of_modular l n fun _ => hentries ▸ hreceived

/-- The totals of a cumulative collector merge the deltas of a collector that took the same
recordings. -/
theorem Accounted.merges [Quantity.Modular T] {deltas : List (AttributeSet × Accumulation T k)}
    (hdeltas : c.Accounted l.close deltas) (hnames : c.names = c'.names)
    (hentries : l.entries = l'.entries) (h' : c'.Follows l') (hr' : c'.Retains l')
    (hcumulative : c'.config.temporality = .cumulative)
    (htimes : (l'.entries.map (·.recording)).Pairwise (·.time < ·.time)) (start time : Time) :
    Merges deltas (c'.accounts start time) := by
  -- a name has a total where it has a delta, with the same tally
  have hjoin : ∀ n ∈ c'.names,
      (Accumulation.joinAll ((deltas.filter (·.1 == n.2)).map (·.2))).map (·.tally) =
        (Accumulation.joinAll (c'.yields l'.close n)).map (·.tally) := fun n hn =>
    hdeltas.joinAll_tally hentries htimes (hnames ▸ hn)
  have hsome : ∀ n ∈ c'.names, (∃ b, Accumulation.joinAll (c'.yields l'.close n) = some b) ↔
      ∃ e ∈ deltas, (e.1 == n.2) = true := by
    intro n hn
    rw [← Option.isSome_iff_exists, ← Option.isSome_map (f := (·.tally)), ← hjoin n hn,
      Option.isSome_map, Option.isSome_iff_ne_none, Ne, Accumulation.joinAll_eq_none,
      List.map_eq_nil_iff, List.filter_eq_nil_iff]
    push Not
    rfl
  rw [accounts_eq_filterMap_names h' hr' hcumulative]
  refine ⟨?_, fun set => ⟨?_, ?_⟩, ?_⟩
  · refine h'.distinct.sets.filterMap _ fun n n' hne e he e' he' => ?_
    obtain ⟨a, -, rfl⟩ := Option.map_eq_some_iff.1 he
    obtain ⟨a', -, rfl⟩ := Option.map_eq_some_iff.1 he'
    exact hne
  · rintro ⟨e, he, rfl⟩
    obtain ⟨n, hn, hne⟩ := List.mem_filterMap.1 he
    obtain ⟨b, hb, rfl⟩ := Option.map_eq_some_iff.1 hne
    obtain ⟨d, hd, hdn⟩ := (hsome n hn).1 ⟨b, hb⟩
    obtain ⟨m, hm, hmd⟩ := hdeltas.names d hd
    rw [← hmd] at hdn
    rw [h'.distinct.name_inj (hnames ▸ hm) hn hdn] at hmd
    exact ⟨d, hd, hmd.symm⟩
  · rintro ⟨d, hd, rfl⟩
    -- a set equals the one of its delta only if it equals itself
    obtain ⟨n, hn, hnd⟩ := hdeltas.names d hd
    rw [hnames] at hn
    obtain ⟨b, hb⟩ := (hsome n hn).2 ⟨d, hd, hnd ▸ hr'.reflexive n hn⟩
    exact ⟨(n.2, b), List.mem_filterMap.2 ⟨n, hn, by rw [hb, Option.map_some]⟩, hnd⟩
  · intro e he
    obtain ⟨n, hn, hne⟩ := List.mem_filterMap.1 he
    obtain ⟨b, hb, rfl⟩ := Option.map_eq_some_iff.1 hne
    have hjoin := hjoin n hn
    rw [hb] at hjoin
    obtain ⟨a, ha, hab⟩ := Option.map_eq_some_iff.1 hjoin
    exact ⟨a, ha, hab.symm⟩

/-- What two totals of a set are made of, where the later one is of further entries. -/
theorem tallies_of_mem_accounts [Quantity.Modular T] (h : c.Follows l) (hr : c.Retains l)
    (hcumulative : c.config.temporality = .cumulative) (h' : c'.Follows l') (hr' : c'.Retains l')
    (hcumulative' : c'.config.temporality = .cumulative) (hnames : ∀ n ∈ c.names, n ∈ c'.names)
    {further : List (Entry T)} (hentries : l'.entries = l.entries ++ further)
    (htimes : (l'.entries.map (·.recording)).Pairwise (·.time < ·.time))
    {start time start' time' : Time} {set : AttributeSet} {p t : Accumulation T k}
    (hp : (set, p) ∈ c.accounts start time) (ht : (set, t) ∈ c'.accounts start' time') :
    ∃ n ∈ c'.names, n.2 = set ∧ received l.entries n.1 ≠ [] ∧
      p.tally = k.tallyOf (received l.entries n.1) ∧
      t.tally = k.tallyOf (received l.entries n.1 ++ received further n.1) := by
  have hbefore := htimes
  rw [hentries, List.map_append] at hbefore
  obtain ⟨n, hn, hset, hne, hptally⟩ :=
    tally_of_mem_accounts h hr hcumulative (List.pairwise_append.1 hbefore).1 hp
  obtain ⟨n', hn', hset', -, httally⟩ := tally_of_mem_accounts h' hr' hcumulative' htimes ht
  have hname : n' = n := hr'.name_eq h'.distinct hn' (hnames n hn) (hset'.trans hset.symm)
  rw [hname, hentries, received_append] at httally
  exact ⟨n, hnames n hn, hset, hne, hptally, httally⟩

/-- The deltas of the open cycle bridge the totals without it and those with it. -/
theorem Follows.bridged [Quantity.Word T] {d : Collector T k} {m : Ledger T} (hd : d.Follows m)
    (hdelta : d.config.temporality = .delta) (h : c.Follows l) (hr : c.Retains l)
    (hcumulative : c.config.temporality = .cumulative) (h' : c'.Follows l') (hr' : c'.Retains l')
    (hcumulative' : c'.config.temporality = .cumulative) (hnames : ∀ n ∈ c.names, n ∈ c'.names)
    (hnames' : d.names = c'.names) (hentries : l'.entries = l.entries ++ m.current)
    (htimes : (l'.entries.map (·.recording)).Pairwise (·.time < ·.time)) (hk : k ≠ .lastValue)
    (start time start' time' began ended : Time) :
    Bridged (c.accounts start time) (d.accounts began ended) (c'.accounts start' time') where
  delta set p a t hp ha ht := by
    obtain ⟨n, hn, hset, hne, hptally, httally⟩ := tallies_of_mem_accounts h hr hcumulative h' hr'
      hcumulative' hnames hentries htimes hp ht
    obtain ⟨o, ho, hoset, hne', hatally⟩ := tally_of_mem_accounts_delta hd hdelta ha
    have hname : o = n :=
      hr'.name_eq h'.distinct (hnames' ▸ ho) hn (hoset.trans hset.symm)
    rw [hname] at hne' hatally
    have hreceived := htimes.sublist (received_sublist l'.entries n.1)
    rw [hentries, received_append] at hreceived
    -- all numbers of the set come from one series, and the round added the delta to it
    have hmerge : t.tally = k.merge p.tally a.tally := by
      rw [httally, hptally, hatally]
      exact (k.merge_tallyOf_of_modular hne hne' fun _ => hreceived).symm
    rw [hmerge]
    refine Kind.bridges_merge hk ?_
    rw [hptally, hatally, Kind.length_countsOf_tallyOf, Kind.length_countsOf_tallyOf]
  none set p t hp ht hnone := by
    obtain ⟨n, hn, rfl, -, hptally, httally⟩ := tallies_of_mem_accounts h hr hcumulative h' hr'
      hcumulative' hnames hentries htimes hp ht
    rw [httally, received_current_eq_nil hd hdelta (hnames' ▸ hn) hnone, List.append_nil, ← hptally]
    exact Kind.unchanged_self hk _

end

/-! ## Runs of the two -/

omit [Quantity T] in
/-- The recordings of commands that record. -/
theorem filterMap_recording?_record (rs : List (Recording T)) :
    (rs.map Command.record).filterMap Command.recording? = rs := by
  rw [List.filterMap_map]
  exact List.filterMap_some

omit [Quantity T] in
/-- A collection makes no recording. -/
theorem filterMap_recording?_collect (commands : List (Command T)) (start time : Time) :
    (commands ++ [Command.collect start time]).filterMap Command.recording? =
      commands.filterMap Command.recording? := by
  rw [List.filterMap_append]
  exact List.append_nil _

/-- Where recordings and collections take a new collector. -/
theorem run_new (sampling : SamplingPlan T) (stream : Stream) (config : ReaderConfig)
    {commands : List (Command T)} (hplain : ∀ command ∈ commands, command.IsPlain)
    (hreflexive : ∀ command ∈ commands, command.IsReflexive config.filter) :
    let c : Collector T k := new sampling stream config
    (c.run commands).2.Follows (c.ledger {} commands) ∧
      (c.run commands).2.Retains (c.ledger {} commands) ∧ (c.run commands).2.config = config ∧
      (c.ledger {} commands).entries.map (·.recording) =
        commands.filterMap Command.recording? := by
  intro c
  have hfollows : c.Follows {} := .new sampling stream config
  have hretains : c.Retains {} := .new sampling stream config
  have hadmits := c.admitsAll_of_plain hplain
  exact ⟨hfollows.run hadmits, hretains.run hfollows hadmits hreflexive,
    congrArg Settings.config (settings_run c commands), hfollows.entries_ledger hadmits⟩

section

variable [Quantity.Ranked T] (sampling : SamplingPlan T) (stream : Stream)
  {config config' : ReaderConfig} (hlimit : config.limit = config'.limit) (hfilter : config.filter = config'.filter)
  (hidle : config.maxIdle = none) (hidle' : config'.maxIdle = none)
  (hdelta : config.temporality = .delta) (hcumulative : config'.temporality = .cumulative)

include hlimit hfilter hidle hidle' hdelta hcumulative

/-- Once the delta collector has collected all recordings, the totals of the cumulative one merge its
deltas. -/
theorem merges_of_run [Quantity.Modular T] {ds us : List (Command T)} {start time : Time}
    (hds : ∀ command ∈ ds ++ [Command.collect start time], command.IsPlain)
    (hus : ∀ command ∈ us, command.IsPlain)
    (hdsets : ∀ command ∈ ds ++ [Command.collect start time], command.IsReflexive config.filter)
    (husets : ∀ command ∈ us, command.IsReflexive config'.filter)
    (hrecordings : (ds ++ [Command.collect start time]).filterMap Command.recording? =
      us.filterMap Command.recording?)
    (htimes : (us.filterMap Command.recording?).Pairwise (·.time < ·.time)) (start' time' : Time) :
    Merges
      ((new sampling stream config : Collector T k).allAccounts
        (ds ++ [.collect start time])).flatten
      (((new sampling stream config' : Collector T k).run us).2.accounts start' time') := by
  let c : Collector T k := new sampling stream config
  obtain ⟨hnames, hentries⟩ := same_entries (k := k) sampling stream hlimit hfilter hidle hidle' hds
    hus hrecordings
  obtain ⟨hfollows', hretains', hconfig', hmade⟩ :=
    run_new (k := k) sampling stream config' hus husets
  -- what the one reports in all its cycles, and what the other keeps
  have haccounted : (c.run (ds ++ [.collect start time])).2.Accounted
      (c.ledger {} (ds ++ [.collect start time]))
      (c.allAccounts (ds ++ [.collect start time])).flatten :=
    (Accounted.new sampling stream config).run (.new sampling stream config)
      (.new sampling stream config) hidle hdelta hds hdsets
  rw [c.ledger_append] at haccounted hentries
  refine haccounted.merges hnames ?_ hfollows' hretains' ?_ (hmade ▸ htimes) start' time'
  · exact (Ledger.entries_close _).symm.trans hentries
  · rw [hconfig']
    exact hcumulative

omit [Quantity.Ranked T] hcumulative hdelta in
/-- The recordings of both collectors since a collection are the open cycle of either. -/
theorem entries_of_round {ds us : List (Command T)} {rs : List (Recording T)}
    {start time start' time' : Time}
    (hds : ∀ command ∈ ds ++ Command.collect start time :: rs.map .record, command.IsPlain)
    (hus : ∀ command ∈ us ++ Command.collect start' time' :: rs.map .record, command.IsPlain)
    (hrecordings : ds.filterMap Command.recording? = us.filterMap Command.recording?) :
    let c : Collector T k := new sampling stream config
    let c' : Collector T k := new sampling stream config'
    let m := c.ledger {} (ds ++ .collect start time :: rs.map .record)
    let l := c'.ledger {} us
    let l' := c'.ledger {} (us ++ .collect start' time' :: rs.map .record)
    (c.run (ds ++ .collect start time :: rs.map .record)).2.names =
        (c'.run (us ++ .collect start' time' :: rs.map .record)).2.names ∧
      l'.entries = l.entries ++ m.current := by
  intro c c' m l l'
  have hds' : ∀ command ∈ ds, command.IsPlain := fun command hcommand =>
    hds command (List.mem_append_left _ hcommand)
  have hus' : ∀ command ∈ us, command.IsPlain := fun command hcommand =>
    hus command (List.mem_append_left _ hcommand)
  have hall : (ds ++ Command.collect start time :: rs.map .record).filterMap Command.recording? =
      (us ++ Command.collect start' time' :: rs.map .record).filterMap Command.recording? := by
    rw [List.filterMap_append, List.filterMap_append, hrecordings]
    rfl
  obtain ⟨-, hbefore⟩ := same_entries (k := k) sampling stream hlimit hfilter hidle hidle' hds' hus'
    hrecordings
  obtain ⟨hnames, hafter⟩ := same_entries (k := k) sampling stream hlimit hfilter hidle hidle' hds hus
    hall
  refine ⟨hnames, hafter.symm.trans ?_⟩
  -- the delta collector's last collection closed all cycles but the one of the round
  have hclosed : m.closed = (c.ledger {} ds).close.closed := by
    show (c.ledger {} (ds ++ .collect start time :: rs.map .record)).closed = _
    rw [c.ledger_append]
    exact ledger_closed_of_recordings _ _ rs
  show m.closed.flatten ++ m.current = _
  rw [hclosed]
  refine congrArg (· ++ m.current) ?_
  exact ((List.append_nil _).symm.trans (Ledger.entries_close _)).trans hbefore

/-- The deltas of a round bridge the totals before and after it. -/
theorem bridged_of_run [Quantity.Word T] {ds us : List (Command T)}
    {rs : List (Recording T)} {start time start' time' : Time}
    (hds : ∀ command ∈ ds ++ Command.collect start time :: rs.map .record, command.IsPlain)
    (hus : ∀ command ∈ us ++ Command.collect start' time' :: rs.map .record, command.IsPlain)
    (hdsets : ∀ command ∈ ds ++ Command.collect start time :: rs.map .record,
      command.IsReflexive config.filter)
    (husets : ∀ command ∈ us ++ Command.collect start' time' :: rs.map .record,
      command.IsReflexive config'.filter)
    (hrecordings : ds.filterMap Command.recording? = us.filterMap Command.recording?)
    (htimes : ((us ++ Command.collect start' time' :: rs.map .record).filterMap
      Command.recording?).Pairwise (·.time < ·.time))
    (hk : k ≠ .lastValue) (began ended began' ended' : Time) :
    Bridged (((new sampling stream config' : Collector T k).run us).2.accounts start' time')
      (((new sampling stream config : Collector T k).run
        (ds ++ .collect start time :: rs.map .record)).2.accounts began ended)
      (((new sampling stream config' : Collector T k).run
        (us ++ .collect start' time' :: rs.map .record)).2.accounts began' ended') := by
  have hus' : ∀ command ∈ us, command.IsPlain := fun command hcommand =>
    hus command (List.mem_append_left _ hcommand)
  have husets' : ∀ command ∈ us, command.IsReflexive config'.filter := fun command hcommand =>
    husets command (List.mem_append_left _ hcommand)
  -- three runs, of which the two cumulative ones share a beginning and the delta one ends alike
  obtain ⟨hfollows, hretains, hconfig, -⟩ := run_new (k := k) sampling stream config' hus' husets'
  obtain ⟨hfollows', hretains', hconfig', hmade⟩ :=
    run_new (k := k) sampling stream config' hus husets
  obtain ⟨hfollowsD, -, hconfigD, -⟩ := run_new (k := k) sampling stream config hds hdsets
  obtain ⟨hnames, hentries⟩ := entries_of_round (k := k) sampling stream hlimit hfilter hidle hidle'
    hds hus hrecordings
  have hkept := names_subset (k := k) sampling stream hidle' hus' hus rs
    (by rw [List.filterMap_append, List.filterMap_cons_none rfl, filterMap_recording?_record])
  exact hfollowsD.bridged ((congrArg ReaderConfig.temporality hconfigD).trans hdelta) hfollows hretains
    ((congrArg ReaderConfig.temporality hconfig).trans hcumulative) hfollows' hretains'
    ((congrArg ReaderConfig.temporality hconfig').trans hcumulative) hkept hnames hentries
    (hmade ▸ htimes) hk start' time' began' ended' began ended

end

end Metering.Collector
