import Metering.Proofs.Collector.Series
import Metering.Proofs.Handle
import Metering.Proofs.Table
import Mathlib.Data.List.Forall2

/-!
# What a collection does

A whole collection of distinct live series, stage by stage. The drains go through the live series in
their order (`drainPending_eq`), so that nothing is left to find when idle series are evicted
(`evict_of_quiet`), and what a collection reports are its `accounts`: the findings of the drains if
reports are deltas (`accounts_delta`).
-/

namespace Metering

variable {T : Type} {k : Kind} [Quantity T]

namespace Series

/-- What a drain finds in a series. -/
def yield (s : Series T k) : Option (Accumulation T k) := (s.handle.drain s.attributes).1

/-- A series after a drain. -/
def drained (s : Series T k) : Series T k := { s with handle := (s.handle.drain s.attributes).2 }

/-- What is kept of a series after a drain: the count of idle collections goes on if the drain found
nothing and starts again if it did. -/
def tick (s : Series T k) (old : Option (Retained T k)) : Retained T k :=
  { old.getD {} with idle := if s.yield.isSome then 0 else (old.getD {}).idle + 1 }

/-- A drain changes neither the identity nor the set. -/
theorem name_drained (s : Series T k) : s.drained.name = s.name := rfl

/-- What the drains of several series find, with their sets. -/
def findings (series : List (Series T k)) : List (AttributeSet × Accumulation T k) :=
  series.filterMap fun s => s.yield.map (s.attributes, ·)

/-- The findings of the first series come first. -/
theorem findings_cons (s : Series T k) (rest : List (Series T k)) :
    findings (s :: rest) = s.yield.toList.map (s.attributes, ·) ++ findings rest := by
  cases hyield : s.yield <;> simp [findings, hyield]

/-- If no drain finds anything, there are no findings. -/
theorem findings_eq_nil {series : List (Series T k)} (h : ∀ s ∈ series, s.yield = none) :
    findings series = [] :=
  List.filterMap_eq_nil_iff.2 fun s hs => by rw [h s hs, Option.map_none]

end Series

namespace Collector

/-- What the drains of a collection find, with the sets of the series. -/
def findings (c : Collector T k) : List (AttributeSet × Accumulation T k) :=
  c.live.filterMap fun s => s.yield.map (s.attributes, ·)

/-! ## Draining -/

omit [Quantity T] in
/-- Changing the one live series that has its identity. -/
theorem updateSeries_of_split {c : Collector T k} {pre post : List (Series T k)} {s : Series T k}
    (hlive : c.live = pre ++ s :: post) (hother : ∀ t ∈ pre ++ post, t.id ≠ s.id)
    (hdetached : c.detached = []) (f : Series T k → Series T k) :
    c.updateSeries s.id f = { c with live := pre ++ f s :: post } := by
  have hid : ∀ l : List (Series T k), (∀ t ∈ l, t.id ≠ s.id) →
      l.map (fun t => if t.id = s.id then f t else t) = l := by
    intro l hl
    exact (List.map_congr_left fun t ht => if_neg (hl t ht)).trans (List.map_id l)
  rw [updateSeries, hdetached, hlive, List.map_append, List.map_cons, if_pos rfl,
    hid pre fun t ht => hother t (List.mem_append_left _ ht),
    hid post fun t ht => hother t (List.mem_append_right _ ht)]
  cases c
  simp_all

omit [Quantity T] in
/-- A live series is the one that has its identity. -/
theorem find?_id {c : Collector T k} (hids : (c.live.map (·.id)).Nodup) {s : Series T k}
    (hs : s ∈ c.live) : c.live.find? (·.id == s.id) = some s := by
  cases hfound : c.live.find? (·.id == s.id) with
  | none => exact absurd (beq_self_eq_true s.id) (List.find?_eq_none.1 hfound s hs)
  | some t =>
    have hid : t.id = s.id := by simpa using List.find?_some hfound
    rw [List.inj_on_of_nodup_map hids (List.mem_of_find?_eq_some hfound) hs hid]

/-- Draining a live series changes that series, what was drained so far, and what is kept of it. -/
theorem drainSeries_of_mem {c : Collector T k} (hids : (c.live.map (·.id)).Nodup)
    (cycle : Cycle T k) {s : Series T k} (hs : s ∈ c.live) :
    c.drainSeries cycle s.id =
      ({ cycle with
          fresh := cycle.fresh.upsertAll (fun a _ => a) (s.yield.toList.map (s.attributes, ·)) },
        { c.updateSeries s.id fun t => { t with handle := s.drained.handle } with
          retained := c.retained.upsert s.attributes s.tick }) := by
  simp only [drainSeries, find?_id hids hs]
  have hyield : s.yield = (s.handle.drain s.attributes).1 := rfl
  -- a drain that finds nothing lets the series idle on, any other ends its idleness
  cases hfound : (s.handle.drain s.attributes).1 with
  | none =>
    rw [hfound] at hyield
    have htick : s.tick = fun old => { old.getD {} with idle := (old.getD {}).idle + 1 } := by
      funext old
      simp [Series.tick, hyield]
    rw [hyield, htick]
    rfl
  | some a =>
    rw [hfound] at hyield
    have htick : s.tick = fun old => { old.getD {} with idle := 0 } := by
      funext old
      simp [Series.tick, hyield]
    rw [hyield, htick]
    rfl

/-- A series that is drained keeps its place among the live series. -/
theorem drainSeries_eq {c : Collector T k} (cycle : Cycle T k) {pre post : List (Series T k)}
    {s : Series T k} (hlive : c.live = pre ++ s :: post) (hids : (c.live.map (·.id)).Nodup)
    (hdetached : c.detached = []) :
    c.drainSeries cycle s.id =
      ({ cycle with
          fresh := cycle.fresh.upsertAll (fun a _ => a) (s.yield.toList.map (s.attributes, ·)) },
        { c with
          live := pre ++ s.drained :: post
          retained := c.retained.upsert s.attributes s.tick }) := by
  have hs : s ∈ c.live := by
    rw [hlive]
    exact List.mem_append_right _ List.mem_cons_self
  rw [drainSeries_of_mem hids cycle hs]
  -- no other live series has the identity, so that only this one is changed
  rw [hlive, List.map_append, List.map_cons, List.nodup_middle, List.nodup_cons] at hids
  have hother : ∀ t ∈ pre ++ post, t.id ≠ s.id := by
    intro t ht heq
    refine hids.1 (heq ▸ ?_)
    rw [← List.map_append]
    exact List.mem_map_of_mem ht
  rw [updateSeries_of_split hlive hother hdetached]
  rfl

/-- Draining one series after another. -/
theorem foldl_drainSeries {c : Collector T k} (cycle : Cycle T k) (pre todo : List (Series T k))
    (hlive : c.live = pre ++ todo) (hids : (c.live.map (·.id)).Nodup) (hdetached : c.detached = []) :
    (todo.map (·.id)).foldl (fun s id => s.2.drainSeries s.1 id) (cycle, c) =
      ({ cycle with
          fresh := cycle.fresh.upsertAll (fun a _ => a) (Series.findings todo) },
        { c with
          live := pre ++ todo.map Series.drained
          retained := c.retained.upsertAll Series.tick (todo.map fun s => (s.attributes, s)) }) := by
  -- by induction on what is left to be drained; `pre` is what was drained already
  induction todo generalizing c cycle pre with
  | nil =>
    rw [List.append_nil] at hlive
    simp [Table.upsertAll, Series.findings, ← hlive]
  | cons s rest ih =>
    rw [List.map_cons, List.foldl_cons, drainSeries_eq cycle hlive hids hdetached]
    refine (ih _ (pre ++ [s.drained]) ?_ ?_ ?_).trans ?_
    · simp
    · simpa [hlive, Series.drained] using hids
    · exact hdetached
    · rw [Series.findings_cons]
      simp [Table.upsertAll]

/-- What is pending does not matter to the drain of one series. -/
theorem drainSeries_pending (c : Collector T k) (cycle : Cycle T k) (pending : List Nat) (id : Nat) :
    c.drainSeries { cycle with pending } id =
      ({ (c.drainSeries cycle id).1 with pending }, (c.drainSeries cycle id).2) := by
  unfold drainSeries
  split
  · rfl
  · dsimp only
    split <;> rfl

/-- A drain is done with the first of the pending series. -/
theorem pending_drainSeries (c : Collector T k) (cycle : Cycle T k) (id : Nat) :
    (c.drainSeries cycle id).1.pending = cycle.pending :=
  congrArg (·.1.pending) (c.drainSeries_pending cycle cycle.pending id)

/-- One step takes one series off those that are pending. -/
theorem pending_drainNext (c : Collector T k) (cycle : Cycle T k) :
    (c.drainNext cycle).1.pending = cycle.pending.tail := by
  unfold drainNext
  cases hpending : cycle.pending with
  | nil => exact hpending
  | cons id rest =>
    dsimp only
    rw [drainSeries_pending, List.tail_cons]

/-- The pending series are drained in their order. -/
theorem drainPending_eq_foldl (c : Collector T k) (cycle : Cycle T k) :
    c.drainPending cycle =
      cycle.pending.foldl (fun s id => s.2.drainSeries s.1 id) ({ cycle with pending := [] }, c) := by
  -- the list that the drains go through and the list that is pending shrink together
  have hfold : ∀ (ids : List Nat) (cycle : Cycle T k) (c : Collector T k),
      ids.foldl (fun s _ => s.2.drainNext s.1) ({ cycle with pending := ids }, c) =
        ids.foldl (fun s id => s.2.drainSeries s.1 id) ({ cycle with pending := [] }, c) := by
    intro ids
    induction ids with
    | nil => exact fun _ _ => rfl
    | cons id rest ih =>
      intro cycle c
      have hnext : c.drainNext { cycle with pending := id :: rest } =
          ({ (c.drainSeries cycle id).1 with pending := rest }, (c.drainSeries cycle id).2) :=
        drainSeries_pending c cycle rest id
      rw [List.foldl_cons, List.foldl_cons, hnext, ih, drainSeries_pending c cycle [] id]
  exact hfold cycle.pending cycle c

/-- The drains of a collection. -/
theorem drainPending_eq {c : Collector T k} (cycle : Cycle T k) (h : c.Distinct)
    (hdetached : c.detached = []) (hpending : cycle.pending = c.live.map (·.id)) :
    c.drainPending cycle =
      ({ cycle with pending := [], fresh := cycle.fresh.upsertAll (fun a _ => a) c.findings },
        { c with
          live := c.live.map Series.drained
          retained := c.retained.upsertAll Series.tick (c.live.map fun s => (s.attributes, s)) }) := by
  rw [drainPending_eq_foldl, hpending]
  exact foldl_drainSeries _ [] c.live rfl h.live_ids hdetached

/-! ## Evicting -/

/-- Nothing was recorded into the live series since they were drained. -/
def Quiet (c : Collector T k) : Prop := ∀ s ∈ c.live, s.handle.recorded = false

omit [Quantity T] in
/-- Taking series away does not break the quiet. -/
theorem Quiet.of_sublist {c c' : Collector T k} (h : c.Quiet) (hlive : c'.live.Sublist c.live) :
    c'.Quiet :=
  fun s hs => h s (hlive.subset hs)

/-- While the series are quiet, evicting finds no late recording. -/
theorem evict_of_quiet {c : Collector T k} (h : c.Quiet) (cycle : Cycle T k) (set : AttributeSet) :
    c.evict cycle set =
      match c.find? set with
      | none => ({ cycle with evicted := cycle.evicted ++ [set] }, c)
      | some s =>
        if 0 < s.holders then (cycle, c)
        else ({ cycle with evicted := cycle.evicted ++ [set] },
          { c with live := c.live.filter fun other => other.id != s.id }) := by
  unfold evict
  cases hfound : c.find? set with
  | none => rfl
  | some s =>
    have hdrain : (s.handle.drain set).1 = none := by
      rw [Handle.drain_of_not_recorded (h s (c.mem_of_find? hfound).2)]
    simp only [hdrain]

/-- While the series are quiet, evicting takes live series away and changes nothing else. -/
theorem foldl_evict_frame {c : Collector T k} (h : c.Quiet) (cycle : Cycle T k)
    (sets : List AttributeSet) :
    ∃ evicted live, live.Sublist c.live ∧
      sets.foldl (fun s set => s.2.evict s.1 set) (cycle, c) =
        ({ cycle with evicted }, { c with live }) := by
  induction sets generalizing c cycle with
  | nil => exact ⟨cycle.evicted, c.live, .refl _, rfl⟩
  | cons set rest ih =>
    rw [List.foldl_cons, evict_of_quiet h]
    split
    · exact ih h _
    · split
      · exact ih h _
      · -- what is left of the live series is quiet too
        rename_i s _ _
        have hsub : (c.live.filter fun other => other.id != s.id).Sublist c.live :=
          List.filter_sublist
        obtain ⟨evicted, live, hlive, heq⟩ :=
          ih (c := { c with live := c.live.filter fun other => other.id != s.id }) (h.of_sublist hsub)
            { cycle with evicted := cycle.evicted ++ [set] }
        exact ⟨evicted, live, hlive.trans hsub, heq⟩

/-- While nothing is recorded, evictions take series away and find nothing. -/
theorem evictIdle_frame {c : Collector T k} (h : c.Quiet) (cycle : Cycle T k) :
    ∃ evicted live, live.Sublist c.live ∧
      c.evictIdle cycle = ({ cycle with evicted }, { c with live }) := by
  unfold evictIdle
  split
  · exact ⟨cycle.evicted, c.live, .refl _, rfl⟩
  · exact foldl_evict_frame h cycle _

/-! ## A whole collection -/

/-- The collector after the drains of a collection. -/
def afterDrains (c : Collector T k) (time : Time) : Collector T k :=
  { c with
    live := c.live.map Series.drained
    retained := c.retained.upsertAll Series.tick (c.live.map fun s => (s.attributes, s))
    lastCollection := some time }

/-- A collection after its drains. -/
def drainedCycle (c : Collector T k) (start time : Time) : Cycle T k where
  window := ⟨start, c.lastCollection.getD start, time⟩
  pending := []
  fresh := ⟨c.findings⟩

/-- Right after the drains there is nothing to be found. -/
theorem quiet_afterDrains (c : Collector T k) (time : Time) : (c.afterDrains time).Quiet := by
  intro s hs
  obtain ⟨t, -, rfl⟩ := List.mem_map.1 hs
  exact Handle.recorded_drain _ _

/-- The drains leave the live series live. -/
theorem names_afterDrains (c : Collector T k) (time : Time) :
    (c.afterDrains time).names = c.names := by
  simp [afterDrains, names, Series.name_drained]

/-- The sets of the findings differ from each other. -/
theorem Distinct.findings {c : Collector T k} (h : c.Distinct) :
    c.findings.Pairwise fun a b => (a.1 == b.1) = false := by
  refine List.pairwise_filterMap.2 (h.live_sets.imp fun {s t} hst a ha b hb => ?_)
  obtain ⟨_, -, rfl⟩ := Option.map_eq_some_iff.1 ha
  obtain ⟨_, -, rfl⟩ := Option.map_eq_some_iff.1 hb
  exact hst

/-- A collection begins with the drains of all distinct series. -/
theorem drainPending_beginCycle {c : Collector T k} (h : c.Distinct) (hdetached : c.detached = [])
    (start time : Time) :
    (c.beginCycle start time).2.drainPending (c.beginCycle start time).1 =
      (c.drainedCycle start time, c.afterDrains time) := by
  have hbegin : (c.beginCycle start time).2.Distinct := ⟨h.ids, h.sets, h.lt_nextId⟩
  have hfresh : Table.upsertAll (fun (a : Accumulation T k) _ => a) ⟨[]⟩ c.findings = ⟨c.findings⟩ := by
    rw [Table.upsertAll_new (fun _ he => absurd he List.not_mem_nil) h.findings]
    simp
  rw [drainPending_eq (c.beginCycle start time).1 hbegin hdetached rfl]
  exact congrArg (fun fresh => ({ c.drainedCycle start time with fresh }, c.afterDrains time)) hfresh

/-- A collection of distinct series drains all of them, evicts and finishes. -/
theorem collect_eq {c : Collector T k} (h : c.Distinct) (hdetached : c.detached = [])
    (start time : Time) :
    c.collect start time =
      ((c.afterDrains time).evictIdle (c.drainedCycle start time)).2.finish
        ((c.afterDrains time).evictIdle (c.drainedCycle start time)).1 := by
  have hdrain := drainPending_beginCycle h hdetached start time
  rw [← show _ = c.afterDrains time from congrArg Prod.snd hdrain,
    ← show _ = c.drainedCycle start time from congrArg Prod.fst hdrain]
  rfl

/-- Finishing a collection changes only what is kept. -/
theorem finish_snd (c : Collector T k) (cycle : Cycle T k) :
    (c.finish cycle).2 =
      { c with
        retained := (match c.config.temporality with
          | .delta => c.retained
          | .cumulative => absorbAll c.retained cycle.fresh).eraseAll cycle.evicted } := by
  unfold finish
  cases htemporality : c.config.temporality <;> dsimp only <;> split <;> rfl

/-- The accumulations that a cycle reports. -/
def output (c : Collector T k) (cycle : Cycle T k) : Table AttributeSet (Accumulation T k) :=
  match c.config.temporality with
  | .delta => cycle.fresh
  | .cumulative => (absorbAll c.retained cycle.fresh).filterMap (·.cumulative)

/-- A cycle is reported if it has anything to report. -/
theorem finish_fst (c : Collector T k) (cycle : Cycle T k) :
    (c.finish cycle).1 =
      if (c.output cycle).isEmpty then none
      else some (.ofSeries c.stream c.config.temporality cycle.window (c.output cycle)) := by
  unfold finish output
  cases htemporality : c.config.temporality <;> dsimp only
  all_goals
    split
    · rfl
    · rw [htemporality]

/-- The accumulations behind the points of the next collection, with the sets of their series. -/
def accounts (c : Collector T k) (start time : Time) : List (AttributeSet × Accumulation T k) :=
  let (cycle, c) := c.beginCycle start time
  let (cycle, c) := c.drainPending cycle
  let (cycle, c) := c.evictIdle cycle
  (c.output cycle).entries

/-- The accounts are what the cycle puts out after its drains and evictions. -/
theorem accounts_eq {c : Collector T k} (h : c.Distinct) (hdetached : c.detached = [])
    (start time : Time) :
    c.accounts start time =
      (((c.afterDrains time).evictIdle (c.drainedCycle start time)).2.output
        ((c.afterDrains time).evictIdle (c.drainedCycle start time)).1).entries := by
  have hdrain := drainPending_beginCycle h hdetached start time
  rw [← show _ = c.afterDrains time from congrArg Prod.snd hdrain,
    ← show _ = c.drainedCycle start time from congrArg Prod.fst hdrain]
  rfl

/-- The report of accumulations for a window, if there are any. -/
def report (c : Collector T k) (start time : Time)
    (series : List (AttributeSet × Accumulation T k)) : Option (Metric T k) :=
  if series.isEmpty then none
  else some (.ofSeries c.stream c.config.temporality ⟨start, c.lastCollection.getD start, time⟩ ⟨series⟩)

/-- Draining and taking series away brings no names in. -/
theorem names_sublist {c : Collector T k} {live : List (Series T k)}
    (h : live.Sublist (c.live.map Series.drained)) : (live.map Series.name).Sublist c.names := by
  have hmap := h.map Series.name
  rwa [List.map_map, show Series.name ∘ Series.drained = (Series.name : Series T k → _) from
    funext Series.name_drained] at hmap

/-- A collection drains the live series and takes some of them away. Else it changes only what is
kept of them and the time of the last collection. -/
theorem collect_snd {c : Collector T k} (h : c.Distinct) (hdetached : c.detached = [])
    (start time : Time) :
    ∃ live retained, live.Sublist (c.live.map Series.drained) ∧
      (c.collect start time).2 = { c with live, retained, lastCollection := some time } := by
  rw [collect_eq h hdetached]
  obtain ⟨evicted, live, hlive, hevict⟩ :=
    evictIdle_frame (c.quiet_afterDrains time) (c.drainedCycle start time)
  rw [hevict]
  exact ⟨live, _, hlive, finish_snd _ _⟩

/-- A collection reports its accounts. -/
theorem collect_fst {c : Collector T k} (h : c.Distinct) (hdetached : c.detached = [])
    (start time : Time) : (c.collect start time).1 = c.report start time (c.accounts start time) := by
  rw [collect_eq h hdetached, accounts_eq h hdetached]
  obtain ⟨evicted, live, -, hevict⟩ :=
    evictIdle_frame (c.quiet_afterDrains time) (c.drainedCycle start time)
  rw [hevict, finish_fst]
  rfl

/-- The accounts of a delta collection are what its drains found. -/
theorem accounts_delta {c : Collector T k} (h : c.Distinct) (hdetached : c.detached = [])
    (hdelta : c.config.temporality = .delta) (start time : Time) :
    c.accounts start time = c.findings := by
  rw [accounts_eq h hdetached]
  obtain ⟨evicted, live, -, hevict⟩ :=
    evictIdle_frame (c.quiet_afterDrains time) (c.drainedCycle start time)
  rw [hevict, output]
  simp only [afterDrains, hdelta]
  rfl

/-! ## From series to points -/

omit [Quantity T] in
/-- Each element of the first of two related lists is related to one of the second. -/
theorem exists_of_mem_forall₂ {α β : Type} {r : α → β → Prop} {l : List α} {m : List β}
    (h : List.Forall₂ r l m) {a : α} (ha : a ∈ l) : ∃ b ∈ m, r a b := by
  induction h with
  | nil => cases ha
  | cons hab _ ih =>
    rcases List.mem_cons.1 ha with rfl | ha
    · exact ⟨_, List.mem_cons_self, hab⟩
    · obtain ⟨b, hb, hrab⟩ := ih ha
      exact ⟨b, List.mem_cons_of_mem _ hb, hrab⟩

omit [Quantity T] in
/-- What `filterMap` keeps, beside what it was made of. -/
theorem forall₂_filterMap {α β : Type} {f : α → Option β} {rs : α → List (Recording T)} {l : List α}
    (h : ∀ a ∈ l, f a = none ↔ rs a = []) :
    List.Forall₂ (fun a b => a ∈ l ∧ f a = some b) (l.filter fun a => !(rs a).isEmpty)
      (l.filterMap f) := by
  induction l with
  | nil => exact .nil
  | cons a rest ih =>
    have ih := (ih fun b hb => h b (List.mem_cons_of_mem a hb)).imp fun b c hbc =>
      And.intro (List.mem_cons_of_mem a hbc.1) hbc.2
    have ha := h a List.mem_cons_self
    -- an element without recordings is left out on both sides
    cases hfound : f a with
    | none =>
      have hempty : rs a = [] := ha.1 hfound
      simpa [List.filter_cons, hfound, hempty] using ih
    | some b =>
      have hne : rs a ≠ [] := by
        intro hempty
        rw [ha.2 hempty] at hfound
        cases hfound
      simpa [List.filter_cons, hfound, hne] using ih

/-- A report with an accumulation for every series that has recordings has a point for exactly
those, in the order of the series. -/
theorem report_points (c : Collector T k) (start time : Time)
    {f : Series T k → Option (Accumulation T k)} {live : List (Series T k)}
    {rs : Series T k → List (Recording T)} (hrs : ∀ s ∈ live, f s = none ↔ rs s = [])
    {m : Metric T k}
    (hm : c.report start time (live.filterMap fun s => (f s).map (s.attributes, ·)) = some m) :
    List.Forall₂ (fun s p => s ∈ live ∧ ∃ a, f s = some a ∧ p = a.point s.attributes)
      (live.filter fun s => !(rs s).isEmpty) m.points := by
  have hpoints : m.points =
      (live.filterMap fun s => (f s).map (s.attributes, ·)).map fun e => e.2.point e.1 := by
    unfold report at hm
    split at hm
    · cases hm
    · cases hm
      rfl
  have hnone : ∀ s ∈ live, (f s).map (s.attributes, ·) = none ↔ rs s = [] := fun s hs => by
    rw [Option.map_eq_none_iff]
    exact hrs s hs
  rw [hpoints, List.forall₂_map_right_iff]
  -- the points correspond to the series that have recordings, one by one
  refine (forall₂_filterMap hnone).imp fun s e hse => ?_
  obtain ⟨a, ha, rfl⟩ := Option.map_eq_some_iff.1 hse.2
  exact ⟨hse.1, a, ha, rfl⟩

/-- A report is missing if no series has anything to say. -/
theorem report_eq_none (c : Collector T k) (start time : Time)
    (f : Series T k → Option (Accumulation T k)) {live : List (Series T k)} :
    c.report start time (live.filterMap fun s => (f s).map (s.attributes, ·)) = none ↔
      ∀ s ∈ live, f s = none := by
  unfold report
  rw [ite_eq_left_iff, List.isEmpty_iff, List.filterMap_eq_nil_iff]
  simp

end Collector

end Metering
