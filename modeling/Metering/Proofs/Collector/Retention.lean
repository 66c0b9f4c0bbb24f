import Metering.Proofs.Collector.Ledger
import Metering.Proofs.Collector.Settings

/-!
# What is kept of a series

What a collector keeps from one collection to the next has one entry per series, in the order of the
live series (`Tracked`). So every stage of a collection treats each series by itself: it counts its
idle collections, adds what was drained from it to what was drained before, and evicts it together
with what was kept of it (`collect_tracked`). Over a run, what is kept of a cumulative series is what
its drains yielded, merged in their order (`Retains`).
-/

namespace Metering

variable {T : Type} {k : Kind} [Quantity T]

/-- What is kept of a series after a collection: cumulatively, what was drained from it is added to
what was kept. -/
def Series.retained (temporality : Temporality) (s : Series T k) (old : Retained T k) :
    Retained T k where
  cumulative :=
    match temporality with
    | .delta => old.cumulative
    | .cumulative => (s.yield.map (Accumulation.join old.cumulative)).or old.cumulative
  idle := if s.yield.isSome then 0 else old.idle + 1

/-- The set that a command looks for equals itself. -/
def Command.IsReflexive (filter : KeyFilter) : Command T → Prop
  | .record r => (filter.apply r.attributes == filter.apply r.attributes) = true
  | .hold set => (set == set) = true
  | _ => True

instance (filter : KeyFilter) : (command : Command T) → Decidable (command.IsReflexive filter)
  | .record r =>
    inferInstanceAs (Decidable ((filter.apply r.attributes == filter.apply r.attributes) = true))
  | .hold set => inferInstanceAs (Decidable ((set == set) = true))
  | .recordHeld _ _ | .drainHeld _ _ | .release _ | .collect _ _ | .shutdown _ _ =>
    inferInstanceAs (Decidable True)

namespace Collector

/-- What is kept of the series of a set; for a new one, nothing. -/
def kept (c : Collector T k) (set : AttributeSet) : Retained T k := (c.retained.get? set).getD {}

/-- Whether the next collection evicts a live series: one that nobody holds and that was idle for
too long. -/
def evicts (c : Collector T k) (s : Series T k) : Bool :=
  match c.config.maxIdle with
  | none => false
  | some limit => decide (limit ≤ (s.tick (some (c.kept s.attributes))).idle) && s.holders == 0

/-- The collector after the drains and the evictions of a collection. -/
def afterEviction (c : Collector T k) (time : Time) : Collector T k :=
  { c.afterDrains time with live := (c.live.filter (!c.evicts ·)).map Series.drained }

/-- Live series equal themselves, and what is kept is kept of the first of them. -/
structure Tracked (c : Collector T k) : Prop where
  reflexive : ∀ n ∈ c.names, (n.2 == n.2) = true
  keys : c.retained.keys <+: c.names.map (·.2)

variable {c : Collector T k}

/-! ## Evicting -/

/-- Evicting a live series takes it away, unless it is held, and enters what it still yields. -/
theorem evict_of_live (h : c.Distinct) (cycle : Cycle T k) {s : Series T k} (hs : s ∈ c.live)
    (hself : (s.attributes == s.attributes) = true) :
    c.evict cycle s.attributes =
      if 0 < s.holders then (cycle, c)
      else
        ({ cycle with
            fresh := cycle.fresh.upsertAll (fun late old => Accumulation.join old late)
              (s.yield.toList.map (s.attributes, ·))
            evicted := cycle.evicted ++ [s.attributes] },
          { c with live := c.live.filter fun other => other.id != s.id }) := by
  unfold evict
  rw [h.find?_eq hs hself]
  -- the drain of an eviction is that of a collection, and only the handle is thrown away with it
  have hyield : s.yield = (s.handle.drain s.attributes).1 := rfl
  dsimp only
  rw [hyield]
  split
  · rfl
  · cases (s.handle.drain s.attributes).1 <;> rfl

/-- Live series that were picked out are evicted, unless they are held, and what they still yield is
entered. -/
theorem foldl_evict (hdistinct : c.Distinct) (cycle : Cycle T k) {victims : List (Series T k)}
    (hlive : ∀ s ∈ victims, s ∈ c.live)
    (hself : ∀ s ∈ victims, (s.attributes == s.attributes) = true)
    (hids : victims.Pairwise fun s t => s.id ≠ t.id) :
    (victims.map (·.attributes)).foldl (fun s set => s.2.evict s.1 set) (cycle, c) =
      ({ cycle with
          fresh := cycle.fresh.upsertAll (fun late old => Accumulation.join old late)
            (Series.findings (victims.filter (·.holders == 0)))
          evicted := cycle.evicted ++ (victims.filter (·.holders == 0)).map (·.attributes) },
        { c with
          live := c.live.filter fun s => !(victims.filter (·.holders == 0)).any (·.id == s.id) }) := by
  induction victims generalizing c cycle with
  | nil => simp [Series.findings, Table.upsertAll]
  | cons s rest ih =>
    obtain ⟨hs, hrest⟩ := List.pairwise_cons.1 hids
    have hself' : ∀ t ∈ rest, (t.attributes == t.attributes) = true := fun t ht =>
      hself t (List.mem_cons_of_mem _ ht)
    have hlive' : ∀ t ∈ rest, t ∈ c.live := fun t ht => hlive t (List.mem_cons_of_mem _ ht)
    rw [List.map_cons, List.foldl_cons,
      evict_of_live hdistinct cycle (hlive s List.mem_cons_self) (hself s List.mem_cons_self)]
    by_cases hholders : s.holders = 0
    -- the victim goes away, and the others are victims of what is left
    · have hsub : (c.live.filter fun other => other.id != s.id).Sublist c.live := List.filter_sublist
      have hdistinct' : ({ c with live := c.live.filter fun other => other.id != s.id } :
          Collector T k).Distinct := hdistinct.of_sublist (hsub.map _) (Nat.le_refl _)
      have hmem : ∀ t ∈ rest, t ∈ c.live.filter fun other => other.id != s.id := fun t ht =>
        List.mem_filter.2 ⟨hlive' t ht, by simpa using (hs t ht).symm⟩
      have hfilter : (s :: rest).filter (·.holders == 0) = s :: rest.filter (·.holders == 0) :=
        List.filter_cons_of_pos (by simp [hholders])
      rw [if_neg (by omega)]
      refine (ih hdistinct' _ hmem hself' hrest).trans ?_
      rw [hfilter, List.map_cons, List.append_assoc, List.singleton_append, List.filter_filter,
        Series.findings_cons, Table.upsertAll_append]
      refine congrArg (fun live => (_, { c with live })) (List.filter_congr fun t _ => ?_)
      rw [List.any_cons, Bool.not_or, Bool.and_comm, bne, BEq.comm]
    -- somebody holds the victim, so it stays and nothing is drained
    · have hfilter : (s :: rest).filter (·.holders == 0) = rest.filter (·.holders == 0) :=
        List.filter_cons_of_neg (by simp [hholders])
      rw [if_pos (by omega), hfilter]
      exact ih hdistinct cycle hlive' hself' hrest

/-- While the series are quiet, those that are evicted yield nothing. -/
theorem foldl_evict_of_quiet (hdistinct : c.Distinct) (hquiet : c.Quiet) (cycle : Cycle T k)
    {victims : List (Series T k)} (hlive : ∀ s ∈ victims, s ∈ c.live)
    (hself : ∀ s ∈ victims, (s.attributes == s.attributes) = true)
    (hids : victims.Pairwise fun s t => s.id ≠ t.id) :
    (victims.map (·.attributes)).foldl (fun s set => s.2.evict s.1 set) (cycle, c) =
      ({ cycle with
          evicted := cycle.evicted ++ (victims.filter (·.holders == 0)).map (·.attributes) },
        { c with
          live := c.live.filter fun s => !(victims.filter (·.holders == 0)).any (·.id == s.id) }) := by
  have hnone : Series.findings (victims.filter (·.holders == 0)) = [] := by
    refine Series.findings_eq_nil fun s hs => ?_
    rw [Series.yield, Handle.drain_of_not_recorded (hquiet s (hlive s (List.mem_filter.1 hs).1))]
  rw [foldl_evict hdistinct cycle hlive hself hids, hnone]
  rfl

omit [Quantity T] in
/-- The set that a series is opened under equals itself if the set that was looked for does. -/
theorem self_beq_of_opened {set new : AttributeSet} (hset : (set == set) = true)
    (hnew : new = set ∨ new = .overflow) : (new == new) = true := by
  rcases hnew with rfl | rfl
  · exact hset
  · decide +kernel

namespace Tracked

omit [Quantity T] in
/-- Live series have sets that equal themselves. -/
theorem reflexive_live (h : c.Tracked) {s : Series T k} (hs : s ∈ c.live) :
    (s.attributes == s.attributes) = true :=
  h.reflexive s.name (List.mem_map_of_mem hs)

omit [Quantity T] in
/-- One set stands for one name. -/
theorem name_eq (h : c.Tracked) (hdistinct : c.Distinct) {n m : Nat × AttributeSet}
    (hn : n ∈ c.names) (hm : m ∈ c.names) (hset : n.2 = m.2) : n = m := by
  refine hdistinct.name_inj hn hm ?_
  rw [hset]
  exact h.reflexive m hm

omit [Quantity T] in
/-- What is kept is kept of live series, the first of them. -/
theorem keys_live (h : c.Tracked) : c.retained.keys <+: c.live.map (·.attributes) := by
  have hkeys := h.keys
  rwa [names, List.map_map] at hkeys

omit [Quantity T] in
/-- Nothing is kept under a set that no live series has. -/
theorem kept_of_new (h : c.Tracked) {set : AttributeSet} (hnew : c.find? set = none) :
    c.kept set = {} := by
  have hget : c.retained.get? set = none := by
    refine Table.get?_eq_none fun other hother => ?_
    obtain ⟨s, hs, rfl⟩ := List.mem_map.1 (h.keys_live.subset hother)
    exact Bool.not_eq_true _ ▸ List.find?_eq_none.1 hnew s hs
  rw [kept, hget, Option.getD_none]

omit [Quantity T] in
/-- A new collector tracks nothing. -/
theorem new (sampling : SamplingPlan T) (stream : Stream) (config : ReaderConfig) :
    (Collector.new sampling stream config : Collector T k).Tracked := ⟨nofun, List.nil_prefix⟩

omit [Quantity T] in
/-- Steps that change neither the names of the series nor what is kept of them. -/
theorem of_names_eq (h : c.Tracked) {c' : Collector T k} (hnames : c'.names = c.names)
    (hretained : c'.retained = c.retained) : c'.Tracked where
  reflexive := hnames ▸ h.reflexive
  keys := by
    rw [hnames, hretained]
    exact h.keys

/-- Nothing is kept of a new series yet. -/
theorem openSeries (h : c.Tracked) {set : AttributeSet} (hset : (set == set) = true) :
    (c.openSeries set).2.Tracked := by
  have hnames := c.names_openSeries set
  refine ⟨fun n hn => ?_, ?_⟩
  · rw [hnames] at hn
    rcases List.mem_append.1 hn with hn | hn
    · exact h.reflexive n hn
    · rw [List.mem_singleton.1 hn]
      exact hset
  · rw [hnames, List.map_append]
    exact h.keys.trans (List.prefix_append _ _)

/-- Acquiring a series keeps this so, since a new one comes last. -/
theorem acquire (h : c.Tracked) {set : AttributeSet} (hset : (set == set) = true) :
    (c.acquire set).2.Tracked := by
  obtain ⟨count, ⟨s, hs, heq⟩ | ⟨new, hnew, -, heq⟩⟩ := c.acquire_cases set
  · rw [heq]
    exact h.of_names_eq (names_take _ s) rfl
  · have hcount : ({ c with overflowCount := count } : Collector T k).Tracked := h.of_names_eq rfl rfl
    rw [heq]
    exact hcount.openSeries (self_beq_of_opened hset hnew)

end Tracked

/-! ## A whole collection -/

/-- After the drains, something is kept of each live series. -/
theorem retained_afterDrains (h : c.Distinct) (htracked : c.Tracked) (time : Time) :
    (c.afterDrains time).retained =
      ⟨c.live.map fun s => (s.attributes, s.tick (some (c.kept s.attributes)))⟩ := by
  have hrows := Table.upsertAll_of_prefix (f := Series.tick) (b := id) htracked.keys_live
    h.live_sets fun s hs => htracked.reflexive_live hs
  refine hrows.trans (congrArg Table.mk (List.map_congr_left fun s _ => ?_))
  refine congrArg (Prod.mk s.attributes) ?_
  cases hold : c.retained.get? s.attributes <;> simp [kept, hold, Series.tick]

/-- Those of the drained series are evicted that were idle for too long, unless they are held. -/
theorem evictIdle_afterDrains (h : c.Distinct) (htracked : c.Tracked) (start time : Time) :
    (c.afterDrains time).evictIdle (c.drainedCycle start time) =
      ({ c.drainedCycle start time with
          evicted := (c.live.filter c.evicts).map (·.attributes) },
        c.afterEviction time) := by
  unfold evictIdle
  cases hidle : c.config.maxIdle with
  | none =>
    have hevicts : c.evicts = fun _ => false := by
      funext s
      simp [evicts, hidle]
    rw [show (c.afterDrains time).config.maxIdle = none from hidle, afterEviction, hevicts]
    simp [afterDrains, drainedCycle]
  | some limit =>
    rw [show (c.afterDrains time).config.maxIdle = some limit from hidle]
    let isIdle (s : Series T k) : Bool :=
      decide (limit ≤ (s.tick (some (c.kept s.attributes))).idle)
    have hvictims : (c.afterDrains time).idleSeries limit =
        ((c.live.filter isIdle).map Series.drained).map (·.attributes) := by
      rw [idleSeries, retained_afterDrains h htracked, List.filter_map, List.map_map, List.map_map]
      rfl
    have hevicts : ∀ s, c.evicts s = (isIdle s && s.holders == 0) := by
      intro s
      simp only [evicts, hidle, isIdle]
    have hdistinct : (c.afterDrains time).Distinct :=
      h.of_sublist (c.names_afterDrains time ▸ List.Sublist.refl _) (Nat.le_refl _)
    have hids : ((c.live.filter isIdle).map Series.drained).Pairwise fun s t => s.id ≠ t.id := by
      exact List.pairwise_map.2 ((List.pairwise_map.1 h.live_ids).filter isIdle)
    dsimp only
    -- no drain is under way, so only holders stand between an idle series and its eviction
    rw [hvictims, foldl_evict_of_quiet hdistinct (c.quiet_afterDrains time) _ ?_ ?_ hids]
    · have hunheld : ((c.live.filter isIdle).map Series.drained).filter (·.holders == 0) =
          (c.live.filter c.evicts).map Series.drained := by
        rw [List.filter_map, List.filter_filter]
        refine congrArg _ (List.filter_congr fun s _ => ?_)
        rw [hevicts, Bool.and_comm]
        rfl
      have hgone : ∀ s ∈ c.live, ((c.live.filter c.evicts).map Series.drained).any
          (·.id == s.id) = c.evicts s := by
        intro s hs
        rw [List.any_map]
        exact any_filter_of_unique hs (beq_self_eq_true s.id)
          (fun t ht hid => h.id_inj ht hs (beq_iff_eq.1 hid)) c.evicts
      rw [hunheld, List.map_map]
      refine congrArg (fun live => (_, { c.afterDrains time with live })) ?_
      show (c.live.map Series.drained).filter _ = _
      rw [List.filter_map]
      refine congrArg _ (List.filter_congr fun s hs => ?_)
      exact congrArg (! ·) (hgone s hs)
    · intro s hs
      obtain ⟨t, ht, rfl⟩ := List.mem_map.1 hs
      exact List.mem_map_of_mem (List.mem_filter.1 ht).1
    · intro s hs
      obtain ⟨t, ht, rfl⟩ := List.mem_map.1 hs
      exact htracked.reflexive_live (s := t) (List.mem_filter.1 ht).1

/-- What is kept of the drained series after adding what the drains found. -/
theorem absorbAll_findings (h : c.Distinct) (htracked : c.Tracked) :
    absorbAll ⟨c.live.map fun s => (s.attributes, s.tick (some (c.kept s.attributes)))⟩
        ⟨c.findings⟩ =
      ⟨c.live.map fun s => (s.attributes, s.retained .cumulative (c.kept s.attributes))⟩ := by
  have hrows := Table.upsertAll_rows
    (fun (a : Accumulation T k) (old : Option (Retained T k)) =>
      { old.getD {} with cumulative := some (Accumulation.join (old.getD {}).cumulative a) })
    (fun s : Series T k => s.tick (some (c.kept s.attributes))) Series.yield
    (fun e (he : e ∈ []) => absurd he List.not_mem_nil) h.live_sets
    fun s hs => htracked.reflexive_live hs
  refine hrows.trans (congrArg Table.mk (List.map_congr_left fun s _ => ?_))
  refine congrArg (Prod.mk s.attributes) ?_
  cases hyield : s.yield <;> simp [Series.retained, Series.tick, hyield]

/-- Erasing what is kept of the evicted series leaves what is kept of the others. -/
theorem eraseAll_evicted (h : c.Distinct) (htracked : c.Tracked)
    (f : Series T k → Retained T k) :
    (⟨c.live.map fun s => (s.attributes, f s)⟩ : Table AttributeSet (Retained T k)).eraseAll
        ((c.live.filter c.evicts).map (·.attributes)) =
      ⟨(c.live.filter (!c.evicts ·)).map fun s => (s.attributes, f s)⟩ := by
  refine congrArg Table.mk ((Table.eraseAll_entries _ _).trans ?_)
  rw [List.filter_map]
  refine congrArg _ (List.filter_congr fun s hs => congrArg (! ·) ?_)
  rw [List.any_map]
  exact any_filter_of_unique hs (htracked.reflexive_live hs)
    (fun t ht hset => (h.set_inj hs ht hset).symm) c.evicts

/-- **A collection, series by series.** -/
theorem collect_tracked (h : c.Distinct) (hdetached : c.detached = []) (htracked : c.Tracked)
    (start time : Time) :
    (c.collect start time).2 =
      { c with
        live := (c.live.filter (!c.evicts ·)).map Series.drained
        retained := ⟨(c.live.filter (!c.evicts ·)).map fun s =>
          (s.attributes, s.retained c.config.temporality (c.kept s.attributes))⟩
        lastCollection := some time } := by
  rw [collect_eq h hdetached, evictIdle_afterDrains h htracked, finish_snd]
  -- the drains and what is absorbed, series by series; what is evicted is erased after that
  have hretained : (match c.config.temporality with
      | .delta => (c.afterDrains time).retained
      | .cumulative => absorbAll (c.afterDrains time).retained ⟨c.findings⟩) =
        ⟨c.live.map fun s =>
          (s.attributes, s.retained c.config.temporality (c.kept s.attributes))⟩ := by
    rw [retained_afterDrains h htracked]
    cases c.config.temporality with
    | delta => rfl
    | cumulative => exact absorbAll_findings h htracked
  refine congrArg (fun retained => { c.afterEviction time with retained }) ?_
  exact (congrArg (Table.eraseAll · _) hretained).trans (eraseAll_evicted h htracked _)

/-- The series that are left after a collection are those that it did not evict. -/
theorem mem_names_collect (h : c.Distinct) (hdetached : c.detached = []) (htracked : c.Tracked)
    {start time : Time} {n : Nat × AttributeSet} (hn : n ∈ (c.collect start time).2.names) :
    ∃ s ∈ c.live, c.evicts s = false ∧ s.name = n := by
  rw [collect_tracked h hdetached htracked] at hn
  obtain ⟨t, ht, rfl⟩ := List.mem_map.1 hn
  obtain ⟨s, hs, rfl⟩ := List.mem_map.1 ht
  obtain ⟨hlive, hevicts⟩ := List.mem_filter.1 hs
  exact ⟨s, hlive, by simpa using hevicts, rfl⟩

/-- What is kept of a series that is left after a collection. -/
theorem kept_collect (h : c.Distinct) (hdetached : c.detached = []) (htracked : c.Tracked)
    (start time : Time) {s : Series T k} (hs : s ∈ c.live) (hevicts : c.evicts s = false) :
    (c.collect start time).2.kept s.attributes =
      s.retained c.config.temporality (c.kept s.attributes) := by
  rw [collect_tracked h hdetached htracked]
  have hget := Table.get?_rows (g := fun s : Series T k =>
      s.retained c.config.temporality (c.kept s.attributes))
    (h.live_sets.filter (!c.evicts ·))
    (fun s hs => htracked.reflexive_live (List.mem_filter.1 hs).1)
    (List.mem_filter.2 ⟨hs, by simp [hevicts]⟩)
  exact congrArg (Option.getD · {}) hget

/-- After a collection, something is kept of each series that is left. -/
theorem Tracked.collect (htracked : c.Tracked) (h : c.Distinct) (hdetached : c.detached = [])
    (start time : Time) : (c.collect start time).2.Tracked := by
  rw [collect_tracked h hdetached htracked]
  refine ⟨fun n hn => ?_, ?_⟩
  · obtain ⟨t, ht, rfl⟩ := List.mem_map.1 hn
    obtain ⟨s, hs, rfl⟩ := List.mem_map.1 ht
    exact htracked.reflexive_live (s := s) (List.mem_filter.1 hs).1
  · simp only [names, Table.keys, List.map_map]
    exact List.prefix_rfl

/-- The accounts of a cumulative collection are what is kept of each series, the evicted ones
included. -/
theorem accounts_cumulative (h : c.Distinct) (hdetached : c.detached = []) (htracked : c.Tracked)
    (hcumulative : c.config.temporality = .cumulative) (start time : Time) :
    c.accounts start time = c.live.filterMap fun s =>
      (s.retained .cumulative (c.kept s.attributes)).cumulative.map (s.attributes, ·) := by
  rw [accounts_eq h hdetached, evictIdle_afterDrains h htracked, output]
  rw [show (c.afterEviction time).config.temporality = .cumulative from hcumulative]
  show ((absorbAll (c.afterDrains time).retained ⟨c.findings⟩).filterMap _).entries = _
  rw [retained_afterDrains h htracked, absorbAll_findings h htracked, Table.filterMap,
    List.filterMap_map]
  rfl

/-! ## Over a run -/

/-- The drains of the closed cycles of a series. -/
def yields (c : Collector T k) (l : Ledger T) (name : Nat × AttributeSet) :
    List (Accumulation T k) :=
  ((Handle.fresh k c.sampling).replay name.2 (l.past name.1)).1

/-- A series that is yet to be opened yielded nothing. -/
theorem Follows.yields_nextId {l : Ledger T} (h : c.Follows l) (set : AttributeSet) :
    c.yields l (c.nextId, set) = [] := by
  rw [yields, (Handle.rested_fresh k c.sampling).replay_of_nil set (Ledger.past_of_unused h.unused)]

/-- After a collection, a live series has yielded once more, if there was anything to yield. -/
theorem Follows.yields_close {l : Ledger T} (h : c.Follows l) {s : Series T k} (hs : s ∈ c.live) :
    c.yields l.close s.name = c.yields l s.name ++ s.yield.toList := by
  rw [yields, Ledger.past_close, Ledger.cycles, Handle.replay_concat, Series.yield, h.handle s hs]
  rfl

/-- The drains of a series found, all in all, what was recorded into it. -/
theorem joinAll_yields_tally [Quantity.Ranked T] (c : Collector T k) (l : Ledger T)
    (name : Nat × AttributeSet)
    (htimes : k = .lastValue → (received l.entries name.1).Pairwise (·.time < ·.time)) :
    (Accumulation.joinAll (c.yields l.close name)).map (·.tally) =
      if received l.entries name.1 = [] then none
      else some (k.withSum (k.tallyOf (received l.entries name.1))
        (totalByCycle ((l.cycles name.1).filter (!·.isEmpty)))) := by
  have hflatten : ((l.cycles name.1).filter (!·.isEmpty)).flatten = received l.entries name.1 := by
    rw [List.flatten_filter_not_isEmpty, l.flatten_cycles]
  have htallies := (Handle.rested_fresh k c.sampling).replay_tallies name.2 (l.cycles name.1)
  rw [yields, l.past_close, Accumulation.joinAll_tally htallies (by simp) (hflatten ▸ htimes),
    hflatten]
  refine if_congr ?_ rfl rfl
  rw [← hflatten]
  simp

/-- If addition can be regrouped, that is the tally of all recordings at once. -/
theorem joinAll_yields_tally_of_modular [Quantity.Ranked T] [Quantity.Modular T] (c : Collector T k)
    (l : Ledger T) (name : Nat × AttributeSet)
    (htimes : k = .lastValue → (received l.entries name.1).Pairwise (·.time < ·.time)) :
    (Accumulation.joinAll (c.yields l.close name)).map (·.tally) =
      if received l.entries name.1 = [] then none
      else some (k.tallyOf (received l.entries name.1)) := by
  rw [c.joinAll_yields_tally l name htimes, totalByCycle_eq_total, List.flatten_filter_not_isEmpty,
    l.flatten_cycles, k.withSum_total]

/-- What is kept of a cumulative series is what its drains yielded. -/
structure Retains (c : Collector T k) (l : Ledger T) : Prop extends c.Tracked where
  cumulative : c.config.temporality = .cumulative →
    ∀ n ∈ c.names, (c.kept n.2).cumulative = Accumulation.joinAll (c.yields l n)

namespace Retains

variable {l : Ledger T}

/-- A new collector retains nothing, and nothing was yielded. -/
theorem new (sampling : SamplingPlan T) (stream : Stream) (config : ReaderConfig) :
    (Collector.new sampling stream config : Collector T k).Retains {} where
  toTracked := .new sampling stream config
  cumulative _ := nofun

/-- Steps that change neither the names of the series nor what is kept of them. -/
theorem of_names_eq (h : c.Retains l) {c' : Collector T k} {l' : Ledger T}
    (hnames : c'.names = c.names) (hretained : c'.retained = c.retained)
    (hsettings : c'.settings = c.settings) (hclosed : l'.closed = l.closed) : c'.Retains l' where
  toTracked := h.toTracked.of_names_eq hnames hretained
  cumulative hcumulative n hn := by
    have hsampling : c'.sampling = c.sampling := congrArg Settings.sampling hsettings
    have hconfig : c'.config = c.config := congrArg Settings.config hsettings
    rw [hconfig] at hcumulative
    rw [hnames] at hn
    rw [kept, hretained, yields, hsampling, Ledger.past, hclosed]
    exact h.cumulative hcumulative n hn

/-- Nothing is kept of a new series, and it yielded nothing. -/
theorem openSeries (h : c.Retains l) (hl : c.Follows l) {set : AttributeSet}
    (hset : (set == set) = true) (hnew : c.find? set = none) : (c.openSeries set).2.Retains l := by
  refine ⟨h.toTracked.openSeries hset, fun hcumulative n hn => ?_⟩
  rw [c.names_openSeries set] at hn
  rcases List.mem_append.1 hn with hn | hn
  · exact h.cumulative hcumulative n hn
  · rw [List.mem_singleton.1 hn]
    show (c.kept set).cumulative = Accumulation.joinAll (c.yields l (c.nextId, set))
    rw [h.kept_of_new hnew, hl.yields_nextId]
    rfl

/-- Acquiring a series keeps this so: nothing was yielded of a new one. -/
theorem acquire (h : c.Retains l) (hl : c.Follows l) {set : AttributeSet}
    (hset : (set == set) = true) : (c.acquire set).2.Retains l := by
  obtain ⟨count, ⟨s, hs, heq⟩ | ⟨new, hnew, hfind, heq⟩⟩ := c.acquire_cases set
  · rw [heq]
    exact h.of_names_eq (names_take _ s) rfl rfl rfl
  · have hcount : ({ c with overflowCount := count } : Collector T k).Retains l :=
      h.of_names_eq rfl rfl rfl rfl
    rw [heq]
    exact hcount.openSeries (hl.overflowCount count) (self_beq_of_opened hset hnew) hfind

/-- What is kept of a live series after a collection: the drains until then, the last one included. -/
theorem retained_cumulative (h : c.Retains l) (hl : c.Follows l)
    (hcumulative : c.config.temporality = .cumulative) {s : Series T k} (hs : s ∈ c.live) :
    (s.retained .cumulative (c.kept s.attributes)).cumulative =
      Accumulation.joinAll (c.yields l.close s.name) := by
  have hkept : (c.kept s.attributes).cumulative = Accumulation.joinAll (c.yields l s.name) :=
    h.cumulative hcumulative s.name (List.mem_map_of_mem hs)
  rw [hl.yields_close hs, Series.retained]
  cases hyield : s.yield with
  | none => simp [hkept]
  | some a => simp [hkept, Accumulation.joinAll_concat]

/-- A collection adds what it yields to what is kept. -/
theorem collect (h : c.Retains l) (hl : c.Follows l) (start time : Time) :
    (c.collect start time).2.Retains l.close := by
  refine ⟨h.toTracked.collect hl.distinct hl.detached start time, fun hcumulative n hn => ?_⟩
  have hconfig : (c.collect start time).2.config = c.config :=
    congrArg Settings.config (settings_collect c start time)
  have hsampling : (c.collect start time).2.sampling = c.sampling :=
    congrArg Settings.sampling (settings_collect c start time)
  rw [hconfig] at hcumulative
  obtain ⟨s, hs, hevicts, rfl⟩ := mem_names_collect hl.distinct hl.detached h.toTracked hn
  rw [yields, hsampling]
  show ((c.collect start time).2.kept s.attributes).cumulative =
    Accumulation.joinAll (c.yields l.close s.name)
  rw [kept_collect hl.distinct hl.detached h.toTracked start time hs hevicts, hcumulative]
  exact h.retained_cumulative hl hcumulative hs

/-- Commands that look for sets which equal themselves keep what is kept in step. -/
theorem perform (h : c.Retains l) (hl : c.Follows l) {command : Command T}
    (hadmits : c.Admits command) (hreflexive : command.IsReflexive c.config.filter) :
    (c.perform command).2.Retains (c.note l command) := by
  cases command with
  | record r =>
    let acquired := c.acquire (c.config.filter.apply r.attributes)
    have hacquire : acquired.2.Retains l := h.acquire hl hreflexive
    have hrecord : ((acquired.2.recordHeld acquired.1 r).release acquired.1).Retains
        (l.enter acquired.1 r) :=
      hacquire.of_names_eq ((names_release _ _).trans (names_recordHeld _ _ _)) rfl rfl rfl
    show (c.record r).Retains _
    rw [record_of_running hl.running, note, hl.running]
    exact hrecord
  | hold set => exact h.acquire hl hreflexive
  | recordHeld id r => exact h.of_names_eq (c.names_recordHeld id r) rfl rfl rfl
  | release id => exact h.of_names_eq (c.names_release id) rfl rfl rfl
  | collect start time => exact h.collect hl start time
  | drainHeld id point => exact hadmits.elim
  | shutdown start time => exact hadmits.elim

/-- Every run that may be done keeps this so, if it looks for sets that equal themselves. -/
theorem run (h : c.Retains l) (hl : c.Follows l) {commands : List (Command T)}
    (hadmits : c.AdmitsAll commands)
    (hreflexive : ∀ command ∈ commands, command.IsReflexive c.config.filter) :
    (c.run commands).2.Retains (c.ledger l commands) := by
  induction commands generalizing c l with
  | nil => exact h
  | cons command rest ih =>
    have hconfig : (c.perform command).2.config = c.config :=
      congrArg Settings.config (settings_perform c command)
    refine ih (h.perform hl hadmits.1 (hreflexive command List.mem_cons_self))
      (hl.perform hadmits.1) hadmits.2 fun command' hcommand' => ?_
    exact hconfig ▸ hreflexive command' (List.mem_cons_of_mem _ hcommand')

end Retains

end Collector

end Metering
