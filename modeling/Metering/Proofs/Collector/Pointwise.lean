import Metering.Proofs.Collector.Hands
import Metering.Proofs.Collector.Roster
import Metering.Proofs.Collector.Shutdown
import Metering.Proofs.Collector.Tracking

/-!
# Points and the recordings behind them

A point of a report stands for a live series with recordings behind it (`Ledger.behind`): those since
the last collection if reports are deltas, and all of them if they are cumulative. What holds of every
accumulation that a series accounts for holds point by point of the report
(`Follows.pointwise_of_collect`). Reports come from collectors that were not shut down before, so
there is always a ledger to read the recordings from (`Follows.plain_of_reported`). -/

namespace Metering

variable {T : Type} {k : Kind}

namespace Ledger

/-- The recordings behind the point of a series. -/
def behind (l : Ledger T) : Temporality → Nat → List (Recording T)
  | .delta, id => l.since id
  | .cumulative, id => received l.entries id

/-- What is behind a point was recorded, in this order. -/
theorem behind_sublist (l : Ledger T) (temporality : Temporality) (id : Nat) :
    (l.behind temporality id).Sublist (l.entries.map (·.recording)) := by
  cases temporality with
  | delta =>
    have hcurrent : (l.current.map (·.recording)).Sublist (l.entries.map (·.recording)) :=
      (List.sublist_append_right l.closed.flatten l.current).map _
    exact (received_sublist l.current id).trans hcurrent
  | cumulative => exact received_sublist l.entries id

end Ledger

variable [Quantity T]

omit [Quantity T] in
/-- Recordings, collections and shutdowns take nothing in hand. -/
theorem Command.not_isHold {command : Command T} (h : command.IsPlain ∨ command.IsShutdown) :
    ¬ command.IsHold := by
  intro hhold
  cases command with
  | hold set => exact h.elim id id
  | _ => exact hhold

namespace Collector

/-- What a report says of a live series, if it says anything. -/
def account (c : Collector T k) (l : Ledger T) (s : Series T k) :
    Temporality → Option (Accumulation T k)
  | .delta => s.yield
  | .cumulative => Accumulation.joinAll (c.yields l.close s.name)

/-- The points of a metric are those of the series with recordings behind them, one after another,
and `P` holds of the recordings and the point. -/
def Pointwise (first : Collector T k) (commands : List (Command T)) (m : Metric T k)
    (P : List (Recording T) → Point T k → Prop) : Prop :=
  let ledger := first.ledger {} commands
  let behind (s : Series T k) := ledger.behind first.config.temporality s.id
  List.Forall₂ (fun s p => p.attributes = s.attributes.toList ∧ P (behind s) p)
    ((first.run commands).2.live.filter fun s => !(behind s).isEmpty) m.points

namespace Pointwise

variable {first : Collector T k} {commands : List (Command T)} {m : Metric T k}
  {P : List (Recording T) → Point T k → Prop}

/-- A point stands for a live series with recordings behind it. -/
theorem exists_series (h : first.Pointwise commands m P) {p : Point T k} (hp : p ∈ m.points) :
    ∃ s ∈ (first.run commands).2.live,
      (first.ledger {} commands).behind first.config.temporality s.id ≠ [] ∧
        p.attributes = s.attributes.toList ∧
        P ((first.ledger {} commands).behind first.config.temporality s.id) p := by
  obtain ⟨s, hs, hattributes, hP⟩ := exists_of_mem_forall₂ (List.Forall₂.flip h) hp
  obtain ⟨hlive, hbehind⟩ := List.mem_filter.1 hs
  exact ⟨s, hlive, by simpa using hbehind, hattributes, hP⟩

/-- A live series with recordings behind it has a point. -/
theorem exists_point (h : first.Pointwise commands m P) {s : Series T k}
    (hs : s ∈ (first.run commands).2.live)
    (hbehind : (first.ledger {} commands).behind first.config.temporality s.id ≠ []) :
    ∃ p ∈ m.points, p.attributes = s.attributes.toList :=
  let ⟨p, hp, hattributes, _⟩ :=
    exists_of_mem_forall₂ h (List.mem_filter.2 ⟨hs, by simpa using hbehind⟩)
  ⟨p, hp, hattributes⟩

end Pointwise

namespace Follows

variable {c : Collector T k} {l : Ledger T}

/-! ## What a series accounts for -/

/-- A collection accounts for its live series. -/
theorem accounts_eq (h : c.Follows l) (hr : c.config.temporality = .cumulative → c.Retains l)
    (start time : Time) :
    c.accounts start time = c.live.filterMap fun s =>
      (c.account l s c.config.temporality).map (s.attributes, ·) := by
  cases htemporality : c.config.temporality with
  | delta => exact accounts_delta h.distinct h.detached htemporality start time
  | cumulative =>
    have hretains := hr htemporality
    rw [accounts_cumulative h.distinct h.detached hretains.toTracked htemporality]
    refine List.filterMap_congr fun s hs => ?_
    rw [hretains.retained_cumulative h htemporality hs, account]

omit [Quantity T] in
/-- No cycle of a series has recordings exactly if nothing ever went into it. -/
theorem filter_cycles_eq_nil (l : Ledger T) (id : Nat) :
    (l.cycles id).filter (!·.isEmpty) = [] ↔ received l.entries id = [] := by
  rw [← l.flatten_cycles, List.flatten_eq_nil_iff, List.filter_eq_nil_iff]
  simp

/-- A series that nothing was recorded into yields nothing. -/
theorem yields_close_eq_nil (c : Collector T k) (l : Ledger T) (name : Nat × AttributeSet) :
    c.yields l.close name = [] ↔ received l.entries name.1 = [] := by
  have htallies := (Handle.rested_fresh k c.sampling).replay_tallies name.2 (l.cycles name.1)
  rw [← filter_cycles_eq_nil, ← List.map_eq_nil_iff (f := k.tallyOf), ← htallies,
    List.map_eq_nil_iff, yields, l.past_close]

/-- A series is accounted for if there are recordings behind it. -/
theorem account_eq_none (h : c.Follows l) {s : Series T k} (hs : s ∈ c.live)
    (temporality : Temporality) :
    c.account l s temporality = none ↔ l.behind temporality s.id = [] := by
  cases temporality with
  | delta => exact h.yield_eq_none hs
  | cumulative => exact Accumulation.joinAll_eq_none.trans (yields_close_eq_nil c l s.name)

/-- The tally that a series accounts for is that of the recordings behind it, but for the sum, which
is taken cycle by cycle if reports are cumulative. -/
theorem account_tally [Quantity.Ranked T] (h : c.Follows l)
    (htimes : k = .lastValue → (l.entries.map (·.recording)).Pairwise (·.time < ·.time))
    {s : Series T k} (hs : s ∈ c.live) {temporality : Temporality} {a : Accumulation T k}
    (ha : c.account l s temporality = some a) :
    l.behind temporality s.id ≠ [] ∧
      ∃ v, a.tally = k.withSum (k.tallyOf (l.behind temporality s.id)) v ∧
        (Quantity.Modular T → v = total (l.behind temporality s.id)) := by
  have hne : l.behind temporality s.id ≠ [] := by
    intro hempty
    rw [(h.account_eq_none hs temporality).2 hempty] at ha
    cases ha
  refine ⟨hne, ?_⟩
  -- one cycle alone, or all of them, each summed on its own first
  cases temporality with
  | delta =>
    have htally : (c.account l s .delta).map (·.tally) = if l.behind .delta s.id = [] then none
        else some (k.tallyOf (l.behind .delta s.id)) := h.yield_tally hs
    rw [ha, if_neg hne, Option.map_some, Option.some_inj] at htally
    exact ⟨_, htally.trans (k.withSum_total _).symm, fun _ => rfl⟩
  | cumulative =>
    have htally : (c.account l s .cumulative).map (·.tally) =
        if l.behind .cumulative s.id = [] then none
        else some (k.withSum (k.tallyOf (l.behind .cumulative s.id))
          (totalByCycle ((l.cycles s.id).filter (!·.isEmpty)))) :=
      c.joinAll_yields_tally l s.name fun hk =>
        (htimes hk).sublist (received_sublist l.entries s.id)
    rw [ha, if_neg hne, Option.map_some, Option.some_inj] at htally
    refine ⟨_, htally, fun hmodular => ?_⟩
    rw [totalByCycle_eq_total, List.flatten_filter_not_isEmpty, l.flatten_cycles]
    rfl

/-! ## Reports -/

/-- There is a report if there are recordings behind any series. -/
theorem collect_eq_none (h : c.Follows l) (hr : c.config.temporality = .cumulative → c.Retains l)
    (start time : Time) :
    (c.collect start time).1 = none ↔ ∀ s ∈ c.live, l.behind c.config.temporality s.id = [] := by
  rw [collect_fst h.distinct h.detached, h.accounts_eq hr, report_eq_none]
  exact forall₂_congr fun s hs => h.account_eq_none hs c.config.temporality

/-- What holds of each series that a collection accounts for holds point by point of its report. -/
theorem pointwise_of_collect {first : Collector T k} (hfirst : first.Follows {})
    {commands : List (Command T)} (hadmits : first.AdmitsAll commands)
    (hretains : first.config.temporality = .cumulative →
      (first.run commands).2.Retains (first.ledger {} commands))
    {start time : Time} {m : Metric T k}
    (hm : ((first.run commands).2.collect start time).1 = some m)
    {P : List (Recording T) → Point T k → Prop}
    (hP : ∀ s ∈ (first.run commands).2.live, ∀ a,
      (first.run commands).2.account (first.ledger {} commands) s first.config.temporality = some a →
        P ((first.ledger {} commands).behind first.config.temporality s.id)
          (a.point s.attributes)) :
    first.Pointwise commands m P := by
  have hfollows := hfirst.run hadmits
  have htemporality : (first.run commands).2.config.temporality = first.config.temporality := by
    rw [config_run]
  rw [collect_fst hfollows.distinct hfollows.detached,
    hfollows.accounts_eq (htemporality ▸ hretains), htemporality] at hm
  have hpoints := report_points _ start time
    (fun s hs => hfollows.account_eq_none hs first.config.temporality) hm
  refine hpoints.imp fun s p hsp => ?_
  obtain ⟨hs, a, ha, rfl⟩ := hsp
  exact ⟨rfl, hP s hs a ha⟩

/-! ## Later reports -/

/-- Without evictions, every live series is there later, with what went into it before. -/
theorem exists_later (h : c.Follows l) (hidle : c.config.maxIdle = none)
    {more : List (Command T)} (hplain : ∀ command ∈ more, command.IsPlain) {s : Series T k}
    (hs : s ∈ c.live) :
    ∃ s' ∈ (c.run more).2.live, s'.name = s.name ∧
      received l.entries s.id <+: received (c.ledger l more).entries s'.id := by
  have hname : s.name ∈ (c.run more).2.names :=
    (h.prefix_names hidle hplain).subset (List.mem_map_of_mem hs)
  obtain ⟨s', hs', heq⟩ := List.mem_map.1 hname
  have hid : s'.id = s.id := congrArg Prod.fst heq
  exact ⟨s', hs', heq, hid ▸ (c.prefix_ledger l more).filterMap _⟩

/-- Once there was something to report, there always is. -/
theorem collect_ne_none (h : c.Follows l) (hretains : c.Retains l)
    (hcumulative : c.config.temporality = .cumulative) (hidle : c.config.maxIdle = none)
    {more : List (Command T)} (hplain : ∀ command ∈ more, command.IsPlain)
    (hreflexive : ∀ command ∈ more, command.IsReflexive c.config.filter) {start time : Time}
    (hne : (c.collect start time).1 ≠ none) (start' time' : Time) :
    ((c.run more).2.collect start' time').1 ≠ none := by
  have hadmits := c.admitsAll_of_plain hplain
  have hretains' := hretains.run h hadmits hreflexive
  rw [Ne, h.collect_eq_none fun _ => hretains, hcumulative] at hne
  rw [Ne, (h.run hadmits).collect_eq_none fun _ => hretains', config_run, hcumulative]
  refine mt (fun hnone s hs => ?_) hne
  obtain ⟨s', hs', -, hstarts⟩ := h.exists_later hidle hplain hs
  have hempty : received (c.ledger l more).entries s'.id = [] := hnone s' hs'
  exact List.prefix_nil.1 (hempty ▸ hstarts)

/-! ## Which collectors report -/

/-- Commands that record, collect or shut down leave a collector closed if one of them is a
shutdown. -/
theorem plain_or_closed (h : c.Follows l) {commands : List (Command T)}
    (hcommands : ∀ command ∈ commands, command.IsPlain ∨ command.IsShutdown) :
    (∀ command ∈ commands, command.IsPlain) ∨ (c.run commands).2.Closed := by
  induction commands generalizing c l with
  | nil => exact .inl fun _ hcommand => absurd hcommand List.not_mem_nil
  | cons command rest ih =>
    have hrest : ∀ other ∈ rest, other.IsPlain ∨ other.IsShutdown := fun other hother =>
      hcommands other (List.mem_cons_of_mem _ hother)
    rcases hcommands command List.mem_cons_self with hplain | hshutdown
    · have hadmits : c.AdmitsAll [command] := c.admitsAll_of_plain (by simpa using hplain)
      refine (ih (h.perform hadmits.1) hrest).imp_left fun hrestplain other hother => ?_
      rcases List.mem_cons.1 hother with rfl | hother
      · exact hplain
      · exact hrestplain other hother
    · -- nothing that comes after the shutdown takes a series in hand
      have hhold : ∀ other ∈ rest, ¬ other.IsHold := fun other hother =>
        Command.not_isHold (hrest other hother)
      cases command with
      | shutdown start time => exact .inr ((closed_shutdown h.running start time).run hhold).2
      | _ => exact hshutdown.elim

/-- If there is something to report after such commands, none of them was a shutdown. -/
theorem plain_of_reported (h : c.Follows l) {commands : List (Command T)}
    (hcommands : ∀ command ∈ commands, command.IsPlain ∨ command.IsShutdown) {command : Command T}
    (hcommand : command.IsPlain ∨ command.IsShutdown) {m : Metric T k}
    (hm : ((c.run commands).2.perform command).1 = .reported (some m)) :
    ∀ other ∈ commands, other.IsPlain := by
  refine (h.plain_or_closed hcommands).resolve_right fun hclosed => ?_
  cases (hclosed.perform (Command.not_isHold hcommand)).1 _ hm

end Follows

end Collector

end Metering
