import Metering.Proofs.Collector.Routing
import Metering.Proofs.Instrument.Reporting

/-!
# Monotonic sums

A monotonic sum takes no negative measurements. A cumulative reader that evicts nothing keeps every
series, and what went into it once is behind all later points of it. So the recordings behind an
earlier point are the first of those behind a later one, and the sum has not gone down in between
unless it was wrapped (`Instrument.monotonic_sums_never_go_down`). -/

namespace Metering

open Quantity

variable {T : Type} [Quantity T]

/-! ## Whole numbers -/

namespace Quantity

/-- Whole numbers within bounds: sums of numbers that are not negative are exact if they are within
the bounds. -/
class Whole (T : Type) [Quantity T] [Ranked T] : Prop extends Modular T where
  isNaN_eq (v : T) : isNaN v = false
  isNegative_eq (v : T) : isNegative v = decide (Ranked.rank v < 0)
  rank_zero : Ranked.rank (zero : T) = 0
  rank_add {v w : T} : 0 ≤ Ranked.rank v → 0 ≤ Ranked.rank w →
    Ranked.rank v + Ranked.rank w ≤ Ranked.rank (greatest : T) →
      Ranked.rank (add v w) = Ranked.rank v + Ranked.rank w

instance : Whole Int64 where
  isNaN_eq _ := rfl
  isNegative_eq _ := decide_eq_decide.2 Int64.lt_iff_toInt_lt
  rank_zero := rfl
  rank_add {v w} hv hw h := by
    change 0 ≤ v.toInt at hv
    change 0 ≤ w.toInt at hw
    change v.toInt + w.toInt ≤ Int64.maxValue.toInt at h
    rw [Int64.toInt_maxValue] at h
    show (v + w).toInt = v.toInt + w.toInt
    rw [Int64.toInt_add]
    exact Int.bmod_eq_of_le_mul_two (by omega) (by omega)

instance : Whole UInt64 where
  isNaN_eq _ := rfl
  isNegative_eq v := (decide_eq_false (Int.not_lt.2 (Int.natCast_nonneg v.toNat))).symm
  rank_zero := rfl
  rank_add {v w} _ _ h := by
    change (v.toNat : Int) + w.toNat ≤ (2 ^ 64 - 1 : Nat) at h
    show ((v + w).toNat : Int) = v.toNat + w.toNat
    rw [UInt64.toNat_add, Nat.mod_eq_of_lt (by omega), Int.natCast_add]

end Quantity

/-! ## Exact totals -/

section

variable [Ranked T] {rs : List (Recording T)}

/-- The sum of recordings, however great. -/
def exactTotal : List (Recording T) → Int
  | [] => 0
  | r :: rest => Ranked.rank r.value + exactTotal rest

/-- Of two values, neither is negative, and the second is not below the first. -/
def Rises (v v' : T) : Prop := numLe zero v = true ∧ numLe v v' = true

/-- The exact total of two stretches is that of one and that of the other. -/
theorem exactTotal_append (rs rs' : List (Recording T)) :
    exactTotal (rs ++ rs') = exactTotal rs + exactTotal rs' := by
  induction rs with
  | nil => exact (Int.zero_add _).symm
  | cons r rest ih => rw [List.cons_append, exactTotal, exactTotal, ih, Int.add_assoc]

/-- The exact total is not negative if none of the recordings is. -/
theorem exactTotal_nonneg (hrs : ∀ r ∈ rs, 0 ≤ Ranked.rank r.value) : 0 ≤ exactTotal rs := by
  induction rs with
  | nil => exact Int.le_refl 0
  | cons r rest ih =>
    exact Int.add_nonneg (hrs r List.mem_cons_self)
      (ih fun other hother => hrs other (List.mem_cons_of_mem _ hother))

variable [Whole T]

/-- A total within the bounds is exact. -/
theorem rank_total (hrs : ∀ r ∈ rs, 0 ≤ Ranked.rank r.value)
    (hfits : exactTotal rs ≤ Ranked.rank (greatest : T)) :
    Ranked.rank (total rs) = exactTotal rs := by
  induction rs using List.reverseRecOn with
  | nil => exact Whole.rank_zero
  | append_singleton before r ih =>
    have hbefore : ∀ r ∈ before, 0 ≤ Ranked.rank r.value := fun r hr =>
      hrs r (List.mem_append_left _ hr)
    have hr : 0 ≤ Ranked.rank r.value := hrs r (List.mem_append_right _ List.mem_cons_self)
    have hexact : exactTotal (before ++ [r]) = exactTotal before + Ranked.rank r.value := by
      rw [exactTotal_append, exactTotal, exactTotal, Int.add_zero]
    rw [hexact] at hfits ⊢
    have hsum := ih hbefore (by omega)
    have hnonneg := exactTotal_nonneg hbefore
    rw [total, List.foldl_append]
    show Ranked.rank (add (total before) r.value) = _
    rw [Whole.rank_add (by omega) hr (by omega), hsum]

/-- Values are ordered by their ranks. -/
theorem numLe_iff_rank (v w : T) : numLe v w = true ↔ Ranked.rank v ≤ Ranked.rank w := by
  rw [Ranked.numLe_eq, Whole.isNaN_eq, Whole.isNaN_eq, Bool.not_false, Bool.true_and, Bool.true_and,
    decide_eq_true_iff]

/-- Totals rise with the recordings. -/
theorem rises_total {rs' : List (Recording T)} (hstarts : rs <+: rs')
    (hrs : ∀ r ∈ rs', 0 ≤ Ranked.rank r.value)
    (hfits : exactTotal rs' ≤ Ranked.rank (greatest : T)) : Rises (total rs) (total rs') := by
  obtain ⟨more, rfl⟩ := hstarts
  have hfirst : ∀ r ∈ rs, 0 ≤ Ranked.rank r.value := fun r hr => hrs r (List.mem_append_left _ hr)
  have hmore := exactTotal_nonneg fun r hr => hrs r (List.mem_append_right rs hr)
  have hnonneg := exactTotal_nonneg hfirst
  have hwhole := rank_total hrs hfits
  rw [exactTotal_append] at hfits hwhole
  have hpart := rank_total hfirst (by omega)
  rw [Rises, numLe_iff_rank, numLe_iff_rank, Whole.rank_zero]
  omega

end

/-! ## Later points of a series -/

namespace Collector

/-- A later metric has the points of an earlier one again, and their sums have not gone down, except
where what went into the series is too much for the type. -/
def Continues [Ranked T] {monotonic : Bool} (first : Collector T (.sum monotonic))
    (commands : List (Command T)) (m m' : Metric T (.sum monotonic)) : Prop :=
  ∀ p ∈ m.points, ∃ s ∈ (first.run commands).2.live, p.attributes = s.attributes.toList ∧
    (∃ p' ∈ m'.points, p'.attributes = p.attributes) ∧
      (exactTotal (received (first.ledger {} commands).entries s.id) ≤ Ranked.rank (greatest : T) →
        ∀ p' ∈ m'.points, p'.attributes = p.attributes → Rises p.reading.value p'.reading.value)

/-- A metric of exact sums is continued by any later one. -/
theorem Routed.continues [Ranked T] [Whole T] {monotonic : Bool}
    {first : Collector T (.sum monotonic)} (hfirst : first.Routed {})
    (hcumulative : first.config.temporality = .cumulative) (hidle : first.config.maxIdle = none)
    {commands more : List (Command T)} (hplain : ∀ command ∈ commands ++ more, command.IsPlain)
    (hreflexive : ∀ command ∈ commands ++ more, command.IsReflexive first.config.filter)
    (hnonneg : ∀ e ∈ (first.ledger {} (commands ++ more)).entries,
      0 ≤ Ranked.rank e.recording.value)
    {m m' : Metric T (.sum monotonic)}
    (hm : first.Pointwise commands m fun rs p => p.reading.value = total rs)
    (hm' : first.Pointwise (commands ++ more) m' fun rs p => p.reading.value = total rs) :
    first.Continues (commands ++ more) m m' := by
  intro p hp
  have hrouted : (first.run commands).2.Routed (first.ledger {} commands) :=
    hfirst.run (fun command hcommand => hplain command (List.mem_append_left _ hcommand))
      fun command hcommand => hreflexive command (List.mem_append_left _ hcommand)
  have hlater : (first.run (commands ++ more)).2.Routed (first.ledger {} (commands ++ more)) :=
    hfirst.run hplain hreflexive
  have hconfig : (first.run commands).2.config = first.config := config_run first commands
  obtain ⟨s, hs, hbehind, hattributes, hvalue⟩ := hm.exists_series hp
  rw [hcumulative] at hbehind hvalue
  obtain ⟨s', hs', hname, hstarts⟩ := hrouted.exists_later (hconfig ▸ hidle)
    (fun command hcommand => hplain command (List.mem_append_right _ hcommand)) hs
  rw [← ledger_append] at hstarts
  have hlive : s' ∈ (first.run (commands ++ more)).2.live := by
    rw [run_append]
    exact hs'
  have hlist : p.attributes = s'.attributes.toList :=
    hattributes.trans (congrArg (fun n : Nat × AttributeSet => n.2.toList) hname.symm)
  have hbehind' : (first.ledger {} (commands ++ more)).behind first.config.temporality s'.id ≠ [] := by
    rw [hcumulative]
    exact fun hempty => hbehind (List.prefix_nil.1 (hempty ▸ hstarts))
  obtain ⟨p', hp', hlist'⟩ := hm'.exists_point hlive hbehind'
  refine ⟨s', hlive, hlist, ⟨p', hp', hlist'.trans hlist.symm⟩, fun hfits q hq hqp => ?_⟩
  -- no other series has these attributes
  obtain ⟨t, ht, -, hlistq, hvalueq⟩ := hm'.exists_series hq
  obtain rfl : t = s' := hlater.series_eq ht hlive (hlistq.symm.trans (hqp.trans hlist))
  rw [hcumulative] at hvalueq
  rw [hvalue, hvalueq]
  refine rises_total hstarts (fun r hr => ?_) hfits
  obtain ⟨e, he, rfl⟩ := List.mem_map.1 ((received_sublist _ _).subset hr)
  exact hnonneg e he

end Collector

/-! ## Over a run -/

namespace Instrument

variable [Ranked T] {i : Instrument T} {reader : Nat}

/-- The points of a sum that may be regrouped show the total of the recordings behind them. -/
theorem pointwise_totals [Modular T] {aggregation : Aggregation} {monotonic : Bool}
    {sampling : SamplingPlan T} {stream : Stream} {config : ReaderConfig}
    {before : List (Command T)}
    (hplain : ∀ heard ∈ before.filterMap (Command.heardBy aggregation reader), heard.IsPlain)
    (hreflexive : ∀ r, .record r ∈ before →
      (config.filter.apply r.attributes == config.filter.apply r.attributes) = true)
    {start time : Time} {m : Metric T (.sum monotonic)}
    (hm : (((Collector.new sampling stream config : Collector T (.sum monotonic)).run
      (before.filterMap (Command.heardBy aggregation reader))).2.collect start time).1 = some m) :
    (Collector.new sampling stream config : Collector T (.sum monotonic)).Pointwise
      (before.filterMap (Command.heardBy aggregation reader)) m
      fun rs p => p.reading.value = total rs := by
  refine pointwise_heard hplain (fun _ => hreflexive) hm fun c l _ hfollows s hs _ a ha => ?_
  obtain ⟨-, v, htally, htotal⟩ := hfollows.account_tally nofun hs ha
  have hvalue : a.tally.value = v := congrArg Total.value htally
  exact hvalue.trans (htotal inferInstance)

variable [Whole T]

/-- A monotonic sum takes no negative measurements. -/
theorem rank_nonneg_of_mem_accepted {commands : List (Command T)} {r : Recording T}
    (hr : r ∈ accepted (.sum true) commands) : 0 ≤ Ranked.rank r.value := by
  have haccepts : Aggregation.accepts (.sum true) r.value = true := (List.mem_filter.1 hr).2
  have hvalid := (Aggregation.accepts_iff _ _).1 haccepts
  rw [Whole.isNegative_eq, decide_eq_true_iff] at hvalid
  exact Int.not_lt.1 fun hnegative => hvalid (.inr ⟨rfl, hnegative⟩)

/-- **Monotonic sums never go down.** Take an instrument of whole numbers that is summarised as a
monotonic sum, a cumulative reader of it that evicts nothing, any commands with recordings of sets that
equal themselves, and two commands that give the reader a report and later an answer. The later answer
is a report, unless there was a shutdown before it. It has the points of the earlier report again. Each
stands for one series, whose value is not negative at first and not less later, if the exact sum of all
recordings that went into the series is no greater than the greatest number. What goes into the series
is all that the instrument took. -/
theorem monotonic_sums_never_go_down {stream : Stream} {filter : ExemplarFilter} {parallelism : Nat}
    {configs : List ReaderConfig} (hnew : new stream (.sum true) filter parallelism configs = .ok i)
    {config : ReaderConfig} (hconfig : configs[reader]? = some config)
    (hcumulative : config.temporality = .cumulative) (hidle : config.maxIdle = none)
    {before between : List (Command T)} {earlier later : Command T}
    (hreflexive : ∀ r, .record r ∈ before ++ earlier :: between →
      (config.filter.apply r.attributes == config.filter.apply r.attributes) = true)
    {report : Report T}
    (hearlier : ((i.run before).2.perform earlier).1.answer? reader earlier = some (some report))
    {answer : Option (Report T)}
    (hlater : ((i.run (before ++ earlier :: between)).2.perform later).1.answer? reader later =
      some answer) :
    (answer = none → ∃ start time, .shutdown start time ∈ earlier :: between) ∧
      ∀ report', answer = some report' →
        ∃ (sampling : SamplingPlan T) (m m' : Metric T (.sum true)),
          Aggregation.sampling filter (max parallelism 1) (.sum true) = .ok sampling ∧
          report = ⟨_, m⟩ ∧ report' = ⟨_, m'⟩ ∧
          let first : Collector T (.sum true) := .new sampling stream config
          let commands := before ++ earlier :: between
          let heard := commands.filterMap (Command.heardBy (.sum true) reader)
          (first.ledger {} heard).entries.map (·.recording) = accepted (.sum true) commands ∧
            first.Continues heard m m' := by
  -- both answers are collections of the reader's own collector, one after more commands than the
  -- other
  obtain ⟨k, sampling, m, hkind, hsampling, rfl, hplain, start, time, hm⟩ :=
    exists_collect_of_answer hnew hconfig hearlier
  cases hkind
  refine ⟨fun hnone => ?_, fun report' hreport' => ?_⟩
  · subst hnone
    exact exists_shutdown_of_none hnew hconfig hcumulative hidle hreflexive hearlier hlater
  · subst hreport'
    obtain ⟨k, sampling', m', hkind', hsampling', rfl, hplain', start', time', hm'⟩ :=
      exists_collect_of_answer hnew hconfig hlater
    cases hkind'
    obtain rfl : sampling = sampling' := Except.ok.inj (hsampling.symm.trans hsampling')
    have hentries := entries_heard sampling stream config (k := .sum true) hplain'
    refine ⟨sampling, m, m', hsampling, rfl, rfl, hentries, ?_⟩
    have htotals := pointwise_totals hplain
      (fun r hr => hreflexive r (List.mem_append_left _ hr)) hm
    have htotals' := pointwise_totals hplain' hreflexive hm'
    have hreflexive' := reflexive_heard (.sum true) reader hreflexive
    have hfirst : (Collector.new sampling stream config : Collector T (.sum true)).Routed {} :=
      .new sampling stream config
    rw [List.filterMap_append] at hentries hplain' htotals' hreflexive' ⊢
    refine hfirst.continues hcumulative hidle hplain' hreflexive' (fun e he => ?_) htotals htotals'
    exact rank_nonneg_of_mem_accepted (hentries ▸ List.mem_map_of_mem he)

/-- The first recording of a series, and one that is negative. -/
def earlyCommands : List (Command Int64) :=
  [.record { value := 5 }, .record { value := -3 }]

/-- Another recording of the series, the first of another series, and a collection by another
reader. -/
def lateCommands : List (Command Int64) :=
  [.record { value := 7 }, .record { value := 1, attributes := [⟨"a", .int 1⟩] }, .collect 1 0 2]

/-- Sums of a cumulative reader, from a collection to the shutdown, with another reader beside
it. -/
theorem monotonic_sums_never_go_down_until_shutdown :
    let shown : Report Int64 → List Int64
      | ⟨.sum _, m⟩ => m.points.map (·.reading.value)
      | _ => []
    ∃ (i : Instrument Int64) (report report' : Report Int64),
      new default (.sum true) .alwaysOff 1 [{}, {}] = .ok i ∧
      ((i.run earlyCommands).2.perform (.collect 0 0 1)).1.answer? 0 (.collect 0 0 1) =
        some (some report) ∧ shown report = [5] ∧
      ((i.run (earlyCommands ++ .collect 0 0 1 :: lateCommands)).2.perform
        (.shutdown 0 3)).1.answer? 0 (.shutdown 0 3) = some (some report') ∧
      shown report' = [12, 1] ∧
      ∃ m m' : Metric Int64 (.sum true), report = ⟨_, m⟩ ∧ report' = ⟨_, m'⟩ ∧
        ∀ p ∈ m.points, ∃ p' ∈ m'.points, p'.attributes = p.attributes ∧
          Rises p.reading.value p'.reading.value := by
  intro shown
  let commands := earlyCommands ++ .collect 0 0 1 :: lateCommands
  let earlier (i : Instrument Int64) : Option (Option (Report Int64)) :=
    ((i.run earlyCommands).2.perform (.collect 0 0 1)).1.answer? 0 (.collect 0 0 1)
  let later (i : Instrument Int64) : Option (Option (Report Int64)) :=
    ((i.run commands).2.perform (.shutdown 0 3)).1.answer? 0 (.shutdown 0 3)
  have hshown : (new default (.sum true) .alwaysOff 1 [{}, {}]).toOption.map
      (fun i => ((earlier i).join.map shown, (later i).join.map shown)) =
        some (some [5], some [12, 1]) := by decide +kernel
  obtain ⟨i, hi, hboth⟩ := Option.map_eq_some_iff.1 hshown
  obtain ⟨hearlier, hlater⟩ := Prod.mk.inj hboth
  obtain ⟨report, hreport, hvalues⟩ := Option.map_eq_some_iff.1 hearlier
  obtain ⟨report', hreport', hvalues'⟩ := Option.map_eq_some_iff.1 hlater
  have hnew := eq_ok_of_toOption hi
  have hearlier : earlier i = some (some report) := Option.join_eq_some_iff.1 hreport
  have hlater : later i = some (some report') := Option.join_eq_some_iff.1 hreport'
  have hreflexive : ∀ r ∈ commands.filterMap Command.recording?,
      (KeyFilter.apply ⟨none⟩ r.attributes == KeyFilter.apply ⟨none⟩ r.attributes) = true := by
    decide +kernel
  obtain ⟨-, hcontinues⟩ := monotonic_sums_never_go_down hnew rfl rfl rfl
    (fun r hr => hreflexive r (mem_recordings hr)) hearlier hlater
  obtain ⟨sampling, m, m', hsampling, hm, hm', -, hpoints⟩ := hcontinues report' rfl
  cases hsampling
  refine ⟨i, report, report', hnew, hearlier, hvalues, hlater, hvalues', m, m', hm, hm',
    fun p hp => ?_⟩
  obtain ⟨s, hs, -, ⟨p', hp', hattributes⟩, hrises⟩ := hpoints p hp
  refine ⟨p', hp', hattributes, hrises ?_ p' hp' hattributes⟩
  let first : Collector Int64 (.sum true) := .new ⟨.alwaysOff, .fixedSize 1⟩ default {}
  let heard := commands.filterMap (Command.heardBy (.sum true) 0)
  -- nothing wraps in any of the series
  have hfits : ((first.run heard).2.live.all fun s => decide
      (exactTotal (received (first.ledger {} heard).entries s.id) ≤
        Ranked.rank (greatest : Int64))) = true := by decide +kernel
  exact of_decide_eq_true (List.all_eq_true.1 hfits s hs)

end Instrument

end Metering
