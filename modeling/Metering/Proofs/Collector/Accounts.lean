import Metering.Proofs.Collector.Retention
import Metering.Proofs.Collector.Roster
import Metering.Proofs.Instrument.Run

/-!
# Accounts over a run

What stands behind the points that a collector reports over a run of recordings and collections
(`Collector.allAccounts`). If reports are deltas and nothing is evicted, the accounts of a series, one
collection after another, are what its drains yield (`Collector.Accounted`); if they are cumulative,
the accounts of each collection are what the drains of the series yielded so far, merged.
-/

namespace Metering

variable {T : Type} {k : Kind} [Quantity T]

/-- The points of a report, if there is one. -/
def pointsOf (m : Option (Report T)) : List ((k : Kind) × Point T k) :=
  m.elim [] fun m => m.2.points.map (⟨m.1, ·⟩)

namespace Collector

/-- The accounts of a command that collects. -/
def accountsOf (c : Collector T k) : Command T → List (List (AttributeSet × Accumulation T k))
  | .collect start time => [c.accounts start time]
  | _ => []

/-- The accounts of all collections in a run, one after another. -/
def allAccounts (c : Collector T k) :
    List (Command T) → List (List (AttributeSet × Accumulation T k))
  | [] => []
  | command :: rest => c.accountsOf command ++ (c.perform command).2.allAccounts rest

/-- The accounts of a run, and then those of what follows. -/
theorem allAccounts_append (c : Collector T k) (commands more : List (Command T)) :
    c.allAccounts (commands ++ more) =
      c.allAccounts commands ++ (c.run commands).2.allAccounts more := by
  induction commands generalizing c with
  | nil => rfl
  | cons command rest ih =>
    rw [List.cons_append, allAccounts, ih, allAccounts, List.append_assoc]
    rfl

/-- A collection at the end of a run adds its accounts. -/
theorem allAccounts_collect (c : Collector T k) (commands : List (Command T)) (start time : Time) :
    c.allAccounts (commands ++ [.collect start time]) =
      c.allAccounts commands ++ [(c.run commands).2.accounts start time] := by
  rw [allAccounts_append]
  rfl

/-- Recording alone accounts for nothing. -/
theorem allAccounts_recordings (c : Collector T k) (rs : List (Recording T)) :
    c.allAccounts (rs.map .record) = [] := by
  induction rs generalizing c with
  | nil => rfl
  | cons r rest ih => exact ih (c.record r)

/-- Two collections, with nothing but recordings in between, account one after the other. -/
theorem allAccounts_round (c : Collector T k) (commands : List (Command T)) (rs : List (Recording T))
    (start time start' time' : Time) :
    c.allAccounts (commands ++ .collect start time :: rs.map .record ++ [.collect start' time']) =
      c.allAccounts commands ++
        [(c.run commands).2.accounts start time,
          (c.run (commands ++ .collect start time :: rs.map .record)).2.accounts start' time'] := by
  rw [allAccounts_collect, allAccounts_append, allAccounts, allAccounts_recordings,
    List.append_assoc]
  rfl

/-- The points that a collector reports show its accounts. -/
theorem pointsOf_results {c : Collector T k} {l : Ledger T} (h : c.Follows l)
    {commands : List (Command T)} (hplain : ∀ command ∈ commands, command.IsPlain) :
    (c.results commands).map pointsOf =
      (c.allAccounts commands).map (·.map fun e => ⟨k, e.2.point e.1⟩) := by
  induction commands generalizing c l with
  | nil => rfl
  | cons command rest ih =>
    have hrest : ∀ other ∈ rest, other.IsPlain := fun other hother =>
      hplain other (List.mem_cons_of_mem _ hother)
    have ih := ih (h.perform (c.admitsAll_of_plain hplain).1) hrest
    have hcommand := hplain command List.mem_cons_self
    -- a recording has no result and no accounts; a collection has one of each
    cases command, hcommand using Command.IsPlain.cases with
    | record r => exact ih
    | collect start time =>
      have hpoints : pointsOf ((c.collect start time).1.map (⟨k, ·⟩)) =
          (c.accounts start time).map fun e => (⟨k, e.2.point e.1⟩ : (k : Kind) × Point T k) := by
        rw [collect_fst h.distinct h.detached, report]
        cases c.accounts start time with
        | nil => rfl
        | cons e rest => simp [pointsOf, Metric.ofSeries]
      exact congrArg₂ List.cons hpoints ih

/-! ## Delta accounts -/

/-- What was accounted for so far is what the drains of the live series yielded, series by series. -/
structure Accounted (c : Collector T k) (l : Ledger T)
    (accounts : List (AttributeSet × Accumulation T k)) : Prop where
  yields : ∀ n ∈ c.names, (accounts.filter (·.1 == n.2)).map (·.2) = c.yields l n
  names : ∀ e ∈ accounts, ∃ n ∈ c.names, n.2 = e.1

namespace Accounted

variable {c : Collector T k} {l : Ledger T} {accounts : List (AttributeSet × Accumulation T k)}

/-- Nothing was accounted for at first. -/
theorem new (sampling : SamplingPlan T) (stream : Stream) (config : ReaderConfig) :
    (Collector.new sampling stream config : Collector T k).Accounted {} [] := ⟨nofun, nofun⟩

/-- What was accounted for does not depend on the open cycle. -/
theorem of_names_eq (h : c.Accounted l accounts) {c' : Collector T k} {l' : Ledger T}
    (hnames : c'.names = c.names) (hsampling : c'.sampling = c.sampling)
    (hclosed : l'.closed = l.closed) : c'.Accounted l' accounts where
  yields n hn := by
    rw [Collector.yields, hsampling, Ledger.past, hclosed]
    exact h.yields n (hnames ▸ hn)
  names := hnames ▸ h.names

/-- Nothing was accounted for a new series. -/
theorem openSeries (h : c.Accounted l accounts) (hl : c.Follows l) {set : AttributeSet}
    (hnew : c.find? set = none) : (c.openSeries set).2.Accounted l accounts := by
  have hnames := c.names_openSeries set
  refine ⟨fun n hn => ?_, fun e he => ?_⟩
  · rw [hnames] at hn
    rcases List.mem_append.1 hn with hn | hn
    · exact h.yields n hn
    · -- nothing under this set was accounted for, or its series would have been found
      have hother : ∀ e ∈ accounts, ¬ (e.1 == set) = true := by
        intro e he hset
        obtain ⟨n, hn, hne⟩ := h.names e he
        obtain ⟨s, hs, rfl⟩ := List.mem_map.1 hn
        refine List.find?_eq_none.1 hnew s hs ?_
        rw [show s.attributes = e.1 from hne]
        exact hset
      rw [List.mem_singleton.1 hn, List.filter_eq_nil_iff.2 hother]
      exact (hl.yields_nextId set).symm
  · obtain ⟨n, hn, hne⟩ := h.names e he
    refine ⟨n, ?_, hne⟩
    rw [hnames]
    exact List.mem_append_left _ hn

/-- Acquiring a series keeps this so: a new one has no closed cycles. -/
theorem acquire (h : c.Accounted l accounts) (hl : c.Follows l) (set : AttributeSet) :
    (c.acquire set).2.Accounted l accounts := by
  obtain ⟨count, ⟨s, hs, heq⟩ | ⟨new, -, hfind, heq⟩⟩ := c.acquire_cases set
  · rw [heq]
    exact h.of_names_eq (names_take _ s) rfl rfl
  · have hcount : ({ c with overflowCount := count } : Collector T k).Accounted l accounts :=
      h.of_names_eq rfl rfl rfl
    rw [heq]
    exact hcount.openSeries (hl.overflowCount count) hfind

/-- What the drains of a collection find under the set of a live series is what the series yields. -/
theorem findings_filter (hl : c.Follows l) (hreflexive : ∀ n ∈ c.names, (n.2 == n.2) = true)
    {s : Series T k} (hs : s ∈ c.live) :
    (c.findings.filter (·.1 == s.attributes)).map (·.2) = s.yield.toList := by
  have hself : (s.attributes == s.attributes) = true := hreflexive s.name (List.mem_map_of_mem hs)
  have hsets := hl.distinct.live_sets
  unfold findings
  generalize c.live = live at hs hsets
  induction live with
  | nil => cases hs
  | cons t rest ih =>
    obtain ⟨ht, hrest⟩ := List.pairwise_cons.1 hsets
    rcases List.mem_cons.1 hs with rfl | hs'
    · -- the series of the rest have other sets
      have hother : ∀ e ∈ rest.filterMap fun t => t.yield.map (t.attributes, ·),
          ¬ (e.1 == s.attributes) = true := by
        intro e he
        obtain ⟨u, hu, hue⟩ := List.mem_filterMap.1 he
        obtain ⟨a, -, rfl⟩ := Option.map_eq_some_iff.1 hue
        exact Bool.not_eq_true _ ▸ BEq.symm_false (ht u hu)
      cases hyield : s.yield with
      | none =>
        rw [List.filterMap_cons_none (by rw [hyield]; rfl), List.filter_eq_nil_iff.2 hother]
        rfl
      | some a =>
        rw [List.filterMap_cons_some (b := (s.attributes, a)) (by rw [hyield]; rfl),
          List.filter_cons_of_pos (by exact hself), List.filter_eq_nil_iff.2 hother]
        rfl
    · have hts : ¬ (t.attributes == s.attributes) = true := Bool.not_eq_true _ ▸ ht s hs'
      have ih := ih hs' hrest
      cases hyield : t.yield with
      | none =>
        rw [List.filterMap_cons_none (by rw [hyield]; rfl)]
        exact ih
      | some a =>
        rw [List.filterMap_cons_some (b := (t.attributes, a)) (by rw [hyield]; rfl),
          List.filter_cons_of_neg (by exact hts)]
        exact ih

/-- A delta collection adds what its drains found. -/
theorem collect (h : c.Accounted l accounts) (hl : c.Follows l)
    (hreflexive : ∀ n ∈ c.names, (n.2 == n.2) = true) (hidle : c.config.maxIdle = none)
    (hdelta : c.config.temporality = .delta) (start time : Time) :
    (c.collect start time).2.Accounted l.close (accounts ++ c.accounts start time) := by
  have hnames : (c.collect start time).2.names = c.names :=
    congrArg Roster.names (roster_collect hl.distinct hl.detached hidle start time)
  have hsampling : (c.collect start time).2.sampling = c.sampling :=
    congrArg Settings.sampling (settings_collect c start time)
  rw [accounts_delta hl.distinct hl.detached hdelta]
  -- of every series the cycle adds one account if it had recordings, and none otherwise
  refine ⟨fun n hn => ?_, fun e he => ?_⟩
  · rw [hnames] at hn
    have hyields := h.yields n hn
    obtain ⟨s, hs, rfl⟩ := List.mem_map.1 hn
    have hclose : (c.collect start time).2.yields l.close s.name = c.yields l.close s.name := by
      rw [Collector.yields, Collector.yields, hsampling]
    rw [List.filter_append, List.map_append, hyields, hclose, hl.yields_close hs]
    exact congrArg _ (findings_filter hl hreflexive hs)
  · rw [hnames]
    rcases List.mem_append.1 he with he | he
    · exact h.names e he
    · obtain ⟨s, hs, hse⟩ := List.mem_filterMap.1 he
      obtain ⟨a, -, rfl⟩ := Option.map_eq_some_iff.1 hse
      exact ⟨s.name, List.mem_map_of_mem hs, rfl⟩

/-- Over a run without evictions, the accounts of a delta collector are what its drains yield. -/
theorem run (h : c.Accounted l accounts) (hl : c.Follows l) (hr : c.Retains l)
    (hidle : c.config.maxIdle = none) (hdelta : c.config.temporality = .delta)
    {commands : List (Command T)} (hplain : ∀ command ∈ commands, command.IsPlain)
    (hreflexive : ∀ command ∈ commands, command.IsReflexive c.config.filter) :
    (c.run commands).2.Accounted (c.ledger l commands)
      (accounts ++ (c.allAccounts commands).flatten) := by
  induction commands generalizing c l accounts with
  | nil =>
    rw [allAccounts, List.flatten_nil, List.append_nil]
    exact h
  | cons command rest ih =>
    have hconfig : (c.perform command).2.config = c.config :=
      congrArg Settings.config (settings_perform c command)
    have hadmits := (c.admitsAll_of_plain hplain).1
    have hcommand := hplain command List.mem_cons_self
    -- a recording accounts for nothing; a collection, for what its drains found
    have hstep : (c.perform command).2.Accounted (c.note l command)
        (accounts ++ (c.accountsOf command).flatten) := by
      cases command, hcommand using Command.IsPlain.cases with
      | record r =>
        have hacquire := h.acquire hl (c.config.filter.apply r.attributes)
        show (c.record r).Accounted (c.note l (.record r)) (accounts ++ [])
        rw [record_of_running hl.running, note, hl.running, List.append_nil]
        exact hacquire.of_names_eq ((names_release _ _).trans (names_recordHeld _ _ _)) rfl rfl
      | collect start time =>
        have hcollect := h.collect hl hr.reflexive hidle hdelta start time
        rw [accountsOf, List.flatten_singleton]
        exact hcollect
    have hrest := ih hstep (hl.perform hadmits)
      (hr.perform hl hadmits (hreflexive command List.mem_cons_self)) (hconfig ▸ hidle)
      (hconfig ▸ hdelta) (fun other hother => hplain other (List.mem_cons_of_mem _ hother))
      fun other hother => hconfig ▸ hreflexive other (List.mem_cons_of_mem _ hother)
    rw [allAccounts, List.flatten_append, ← List.append_assoc]
    exact hrest

end Accounted

/-- What a drain found in a live series, and nothing else, is in the accounts of a delta
collection. -/
theorem mem_accounts_delta {c : Collector T k} {l : Ledger T} (h : c.Follows l)
    (hdelta : c.config.temporality = .delta) {start time : Time}
    {e : AttributeSet × Accumulation T k} :
    e ∈ c.accounts start time ↔ ∃ s ∈ c.live, s.yield = some e.2 ∧ s.attributes = e.1 := by
  rw [accounts_delta h.distinct h.detached hdelta, findings, List.mem_filterMap]
  constructor
  · rintro ⟨s, hs, hse⟩
    obtain ⟨a, ha, rfl⟩ := Option.map_eq_some_iff.1 hse
    exact ⟨s, hs, ha, rfl⟩
  · rintro ⟨s, hs, hyield, hset⟩
    exact ⟨s, hs, by rw [hyield, Option.map_some, hset]⟩

/-- The tallies of a delta collection are those of the open cycle. -/
theorem tally_of_mem_accounts_delta {c : Collector T k} {l : Ledger T} (h : c.Follows l)
    (hdelta : c.config.temporality = .delta) {start time : Time}
    {e : AttributeSet × Accumulation T k} (he : e ∈ c.accounts start time) :
    ∃ n ∈ c.names, n.2 = e.1 ∧ received l.current n.1 ≠ [] ∧
      e.2.tally = k.tallyOf (received l.current n.1) := by
  obtain ⟨s, hs, hyield, hset⟩ := (mem_accounts_delta h hdelta).1 he
  have htally := h.yield_tally hs
  rw [hyield] at htally
  refine ⟨s.name, List.mem_map_of_mem hs, hset, ?_⟩
  by_cases hempty : l.since s.id = []
  · rw [if_pos hempty] at htally
    cases htally
  · rw [if_neg hempty, Option.map_some, Option.some_inj] at htally
    exact ⟨hempty, htally⟩

/-- A delta collection leaves out only what has nothing in the open cycle. -/
theorem received_current_eq_nil {c : Collector T k} {l : Ledger T} (h : c.Follows l)
    (hdelta : c.config.temporality = .delta) {start time : Time} {n : Nat × AttributeSet}
    (hn : n ∈ c.names) (hnone : ∀ a, (n.2, a) ∉ c.accounts start time) :
    received l.current n.1 = [] := by
  obtain ⟨s, hs, rfl⟩ := List.mem_map.1 hn
  refine (h.yield_eq_none hs).1 ?_
  rw [Option.eq_none_iff_forall_ne_some]
  intro a ha
  exact hnone a ((mem_accounts_delta h hdelta).2 ⟨s, hs, ha, rfl⟩)

/-! ## Cumulative accounts -/

/-- The accounts of a cumulative collection, by the names of the live series. -/
theorem accounts_eq_filterMap_names {c : Collector T k} {l : Ledger T} (h : c.Follows l)
    (hr : c.Retains l) (hcumulative : c.config.temporality = .cumulative) (start time : Time) :
    c.accounts start time =
      c.names.filterMap fun n => (Accumulation.joinAll (c.yields l.close n)).map (n.2, ·) := by
  rw [accounts_cumulative h.distinct h.detached hr.toTracked hcumulative, names, List.filterMap_map]
  refine List.filterMap_congr fun s hs => ?_
  rw [hr.retained_cumulative h hcumulative hs]
  rfl

/-- The tallies of a cumulative collection are those of all recordings, where sums are modular. -/
theorem tally_of_mem_accounts [Quantity.Ranked T] [Quantity.Modular T] {c : Collector T k}
    {l : Ledger T} (h : c.Follows l) (hr : c.Retains l)
    (hcumulative : c.config.temporality = .cumulative)
    (htimes : (l.entries.map (·.recording)).Pairwise (·.time < ·.time)) {start time : Time}
    {e : AttributeSet × Accumulation T k} (he : e ∈ c.accounts start time) :
    ∃ n ∈ c.names, n.2 = e.1 ∧ received l.entries n.1 ≠ [] ∧
      e.2.tally = k.tallyOf (received l.entries n.1) := by
  rw [accounts_eq_filterMap_names h hr hcumulative] at he
  obtain ⟨n, hn, hne⟩ := List.mem_filterMap.1 he
  obtain ⟨a, ha, rfl⟩ := Option.map_eq_some_iff.1 hne
  have htally := c.joinAll_yields_tally_of_modular l n fun _ =>
    htimes.sublist (received_sublist l.entries n.1)
  rw [ha] at htally
  by_cases hempty : received l.entries n.1 = []
  · rw [if_pos hempty] at htally
    cases htally
  · rw [if_neg hempty, Option.map_some, Option.some_inj] at htally
    exact ⟨n, hn, rfl, hempty, htally⟩

end Collector

end Metering
