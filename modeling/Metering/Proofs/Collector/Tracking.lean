import Metering.Proofs.Collector.Limit
import Metering.Proofs.Collector.Retention

/-!
# Keeping track of series

What a collector keeps has one entry per live series in any run of commands that look for sets which
equal themselves: also when recorders drain series or give them out of hand, and after a shutdown,
since the series that it gave up have no part in a collection (`collect_attached`).
-/

namespace Metering

variable {T : Type} {k : Kind} [Quantity T]

namespace Collector

variable {c : Collector T k}

/-! ## Series that were given up -/

omit [Quantity T] in
/-- A collector without the series that a shutdown gave up. -/
def attached (c : Collector T k) : Collector T k := { c with detached := [] }

omit [Quantity T] in
/-- A collector without the series that were given up, and shut down or not. -/
def apart (c : Collector T k) (shutDown : Bool) : Collector T k :=
  { c with detached := [], shutDown }

/-- A drain looks only at live series, so that those given up and a shutdown do not matter to it. -/
theorem drainSeries_apart (c : Collector T k) (shutDown : Bool) (cycle : Cycle T k) (id : Nat) :
    (c.apart shutDown).drainSeries cycle id =
      ((c.drainSeries cycle id).1, (c.drainSeries cycle id).2.apart shutDown) := by
  have hlive : (c.apart shutDown).live = c.live := rfl
  unfold drainSeries
  rw [hlive]
  cases c.live.find? (·.id == id) with
  | none => rfl
  | some s =>
    dsimp only
    cases (s.handle.drain s.attributes).1 <;> rfl

theorem drainNext_apart (c : Collector T k) (shutDown : Bool) (cycle : Cycle T k) :
    (c.apart shutDown).drainNext cycle =
      ((c.drainNext cycle).1, (c.drainNext cycle).2.apart shutDown) := by
  unfold drainNext
  cases cycle.pending with
  | nil => rfl
  | cons id rest => exact c.drainSeries_apart shutDown _ id

theorem evict_apart (c : Collector T k) (shutDown : Bool) (cycle : Cycle T k)
    (set : AttributeSet) :
    (c.apart shutDown).evict cycle set =
      ((c.evict cycle set).1, (c.evict cycle set).2.apart shutDown) := by
  have hfind : (c.apart shutDown).find? set = c.find? set := rfl
  unfold evict
  rw [hfind]
  cases c.find? set with
  | none => rfl
  | some s =>
    dsimp only
    by_cases hheld : 0 < s.holders
    · rw [if_pos hheld, if_pos hheld]
    · rw [if_neg hheld, if_neg hheld]
      cases (s.handle.drain set).1 <;> rfl

omit [Quantity T] in
/-- What holds of every step holds of steps that follow one another. -/
theorem foldl_apart {α β : Type} {f : β × Collector T k → α → β × Collector T k} {shutDown : Bool}
    (hf : ∀ b c a, f (b, c.apart shutDown) a = ((f (b, c) a).1, (f (b, c) a).2.apart shutDown))
    (l : List α) (b : β) (c : Collector T k) :
    l.foldl f (b, c.apart shutDown) =
      ((l.foldl f (b, c)).1, (l.foldl f (b, c)).2.apart shutDown) := by
  induction l generalizing b c with
  | nil => rfl
  | cons a rest ih =>
    rw [List.foldl_cons, List.foldl_cons, hf]
    exact ih _ _

theorem evictIdle_apart (c : Collector T k) (shutDown : Bool) (cycle : Cycle T k) :
    (c.apart shutDown).evictIdle cycle =
      ((c.evictIdle cycle).1, (c.evictIdle cycle).2.apart shutDown) := by
  have hidle : (c.apart shutDown).config.maxIdle = c.config.maxIdle := rfl
  unfold evictIdle
  rw [hidle]
  cases c.config.maxIdle with
  | none => rfl
  | some limit =>
    exact foldl_apart (f := fun s set => s.2.evict s.1 set)
      (fun cycle c set => evict_apart c shutDown cycle set) _ cycle c

theorem finish_apart (c : Collector T k) (shutDown : Bool) (cycle : Cycle T k) :
    (c.apart shutDown).finish cycle =
      ((c.finish cycle).1, (c.finish cycle).2.apart shutDown) :=
  Prod.ext (by rw [finish_fst, finish_fst]; rfl) (by rw [finish_snd, finish_snd]; rfl)

/-- A collection has no part for series that were given up, and does not ask whether there was a
shutdown. -/
theorem collect_apart (c : Collector T k) (shutDown : Bool) (start time : Time) :
    (c.apart shutDown).collect start time =
      ((c.collect start time).1, (c.collect start time).2.apart shutDown) := by
  have hdrain : ((c.apart shutDown).beginCycle start time).2.drainPending
        ((c.apart shutDown).beginCycle start time).1 =
      (((c.beginCycle start time).2.drainPending (c.beginCycle start time).1).1,
        ((c.beginCycle start time).2.drainPending (c.beginCycle start time).1).2.apart shutDown) :=
    foldl_apart (f := fun s _ => s.2.drainNext s.1)
      (fun cycle c _ => drainNext_apart c shutDown cycle) _ _ (c.beginCycle start time).2
  simp only [Collector.collect, hdrain, evictIdle_apart, finish_apart]

/-- A collection reports the same without the series that were given up. -/
theorem collect_attached (c : Collector T k) (start time : Time) :
    c.attached.collect start time =
      ((c.collect start time).1, (c.collect start time).2.attached) := by
  have hshutDown : (c.collect start time).2.shutDown = c.shutDown :=
    congrArg Frame.shutDown (c.frame_collect start time)
  refine (c.collect_apart c.shutDown start time).trans (congrArg (Prod.mk _) ?_)
  rw [apart, attached, ← hshutDown]

/-- The last report is that of a collection. -/
theorem shutdown_fst {c : Collector T k} (h : c.shutDown = false) (start time : Time) :
    (c.shutdown start time).1 = (c.collect start time).1 := by
  have hclosed := congrArg Prod.fst (collect_apart { c with shutDown := true } true start time)
  have hopen := congrArg Prod.fst (c.collect_apart true start time)
  rw [shutdown, h]
  exact hclosed.symm.trans hopen

/-! ## Points and live series -/

omit [Quantity T] in
/-- What is made of series one by one has the sets of some of them, in their order. -/
theorem map_fst_filterMap_sublist {α : Type} (f : Series T k → Option α) (live : List (Series T k)) :
    ((live.filterMap fun s => (f s).map (s.attributes, ·)).map (·.1)).Sublist
      (live.map (·.attributes)) := by
  induction live with
  | nil => exact .slnil
  | cons s rest ih =>
    cases hfound : f s with
    | none =>
      rw [List.filterMap_cons_none (by rw [hfound]; rfl), List.map_cons]
      exact ih.cons s.attributes
    | some a =>
      rw [List.filterMap_cons_some (b := (s.attributes, a)) (by rw [hfound]; rfl), List.map_cons,
        List.map_cons]
      exact ih.cons_cons s.attributes

/-- The points of a collection are those of some of the live series, if what is kept of them is found
again or not needed. -/
theorem exists_sets_of_collect (h : c.Distinct)
    (hkeys : c.config.temporality = .delta ∨ c.Tracked) {start time : Time} {m : Metric T k}
    (hm : (c.collect start time).1 = some m) :
    ∃ sets : List AttributeSet, sets.Sublist (c.live.map (·.attributes)) ∧
      m.points.map (·.attributes) = sets.map (·.toList) := by
  have hdistinct : c.attached.Distinct := ⟨h.ids, h.sets, h.lt_nextId⟩
  have haccounts : ((c.attached.accounts start time).map (·.1)).Sublist
      (c.live.map (·.attributes)) := by
    -- cumulatively, what is kept has to be kept of live series
    cases htemporality : c.config.temporality with
    | delta =>
      rw [accounts_delta hdistinct rfl htemporality]
      exact map_fst_filterMap_sublist _ c.live
    | cumulative =>
      have htracked : c.Tracked := by simpa [htemporality] using hkeys
      rw [accounts_cumulative hdistinct rfl ⟨htracked.reflexive, htracked.keys⟩ htemporality]
      exact map_fst_filterMap_sublist _ c.live
  have hreport : c.attached.report start time (c.attached.accounts start time) = some m := by
    rw [← collect_fst hdistinct rfl, collect_attached, hm]
  refine ⟨_, haccounts, ?_⟩
  unfold report at hreport
  split at hreport
  · cases hreport
  · cases hreport
    rw [Metric.ofSeries, List.map_map, List.map_map]
    rfl

/-- The points of any report, that of a shutdown included, are those of some of the live series. -/
theorem exists_sets_of_reported (h : c.Distinct)
    (hkeys : c.config.temporality = .delta ∨ c.Tracked) {command : Command T} {m : Metric T k}
    (hm : (c.perform command).1 = .reported (some m)) :
    ∃ sets : List AttributeSet, sets.Sublist (c.live.map (·.attributes)) ∧
      m.points.map (·.attributes) = sets.map (·.toList) := by
  cases command with
  | collect start time => exact exists_sets_of_collect h hkeys (Reply.reported.inj hm)
  | shutdown start time =>
    have hlast : (c.shutdown start time).1 = some m := Reply.reported.inj hm
    unfold shutdown at hlast
    split at hlast
    · cases hlast
    · exact exists_sets_of_collect (c := { c with shutDown := true })
        ⟨h.ids, h.sets, h.lt_nextId⟩ (hkeys.imp_right fun ht => ⟨ht.reflexive, ht.keys⟩) hlast
  | record r => cases hm
  | hold set => cases hm
  | recordHeld id r => cases hm
  | drainHeld id point => cases hm
  | release id => cases hm

/-! ## Over a run -/

/-- Whether or not series were given up, something is kept of those that are left. -/
theorem tracked_collect (h : c.Distinct) (htracked : c.Tracked) (start time : Time) :
    (c.collect start time).2.Tracked := by
  have hattached : c.attached.Tracked := ⟨htracked.reflexive, htracked.keys⟩
  have hcollect := hattached.collect ⟨h.ids, h.sets, h.lt_nextId⟩ rfl start time
  rw [collect_attached] at hcollect
  exact ⟨hcollect.reflexive, hcollect.keys⟩

/-- Commands that look for sets which equal themselves keep what is kept in step. -/
theorem tracked_perform (h : c.Distinct) (htracked : c.Tracked) {command : Command T}
    (hreflexive : command.IsReflexive c.config.filter) : (c.perform command).2.Tracked := by
  cases command with
  | record r =>
    show (c.record r).Tracked
    cases hshut : c.shutDown with
    | true =>
      rw [record, hshut]
      exact htracked
    | false =>
      rw [record_of_running hshut]
      exact (htracked.acquire hreflexive).of_names_eq
        ((names_release _ _).trans (names_recordHeld _ _ _)) rfl
  | hold set => exact htracked.acquire hreflexive
  | recordHeld id r => exact htracked.of_names_eq (c.names_recordHeld id r) rfl
  | drainHeld id point => exact htracked.of_names_eq (c.names_drainHeld id point) rfl
  | release id => exact htracked.of_names_eq (c.names_release id) rfl
  | collect start time => exact tracked_collect h htracked start time
  | shutdown start time =>
    show (c.shutdown start time).2.Tracked
    unfold shutdown
    split
    · exact htracked
    · exact ⟨fun _ hn => absurd hn List.not_mem_nil, List.nil_prefix⟩

/-- In a run that looks only for sets that equal themselves, this stays so. -/
theorem WithinLimit.tracked_run (h : c.WithinLimit) (htracked : c.Tracked)
    {commands : List (Command T)}
    (hreflexive : ∀ command ∈ commands, command.IsReflexive c.config.filter) :
    (c.run commands).2.Tracked := by
  induction commands generalizing c with
  | nil => exact htracked
  | cons command rest ih =>
    have hconfig := config_perform c command
    refine ih (h.perform command)
      (tracked_perform h.toDistinct htracked (hreflexive command List.mem_cons_self))
      fun other hother => ?_
    exact hconfig ▸ hreflexive other (List.mem_cons_of_mem _ hother)

end Collector

end Metering
