import Metering.Proofs.Collector.Cycle
import Metering.Proofs.Tally.Invariant

/-!
# Every tally of a collector

A collector holds tallies in the handles of its series, live or given up, and in what it keeps of
them; a collection under way holds those that it drained. All of them come about by recording,
draining and joining, so a property that tallies keep holds of every one (`Filled`), and of every
tally that a report is made from (`Filled.reading_reported`), whatever is done to the collector and
whatever sets its series have.
-/

namespace Metering

variable {T : Type} {k : Kind}

/-- Values that an entry keeps, or takes in place of none, are found in the table afterwards. -/
theorem Table.forall_upsert {κ α : Type} [BEq κ] {Q : α → Prop} {t : Table κ α} {key : κ}
    {f : Option α → α} (ht : ∀ e ∈ t.entries, Q e.2) (hnew : Q (f none))
    (hold : ∀ a, Q a → Q (f (some a))) : ∀ e ∈ (t.upsert key f).entries, Q e.2 := by
  obtain ⟨entries⟩ := t
  change ∀ e ∈ upsertEntries key f entries, Q e.2
  induction entries with
  | nil => simpa [upsertEntries] using hnew
  | cons d rest ih =>
    obtain ⟨hd, hrest⟩ := List.forall_mem_cons.1 ht
    rw [upsertEntries]
    split
    · exact List.forall_mem_cons.2 ⟨hold d.2 hd, hrest⟩
    · exact List.forall_mem_cons.2 ⟨hd, ih hrest⟩

/-- Joining keeps what merging keeps. -/
theorem Kind.Keeps.join [Quantity T] {P : k.Tally T → Prop} (hP : k.Keeps P)
    {old : Option (Accumulation T k)} (hold : ∀ b, old = some b → P b.tally)
    {a : Accumulation T k} (ha : P a.tally) : P (Accumulation.join old a).tally := by
  cases old with
  | none => exact ha
  | some b => exact hP.merge (hold b rfl) ha

/-- What is kept of a series has a tally with the property, if it has one. -/
def Retained.Filled (P : k.Tally T → Prop) (r : Retained T k) : Prop :=
  ∀ a, r.cumulative = some a → P a.tally

/-- Nothing is kept at first. -/
theorem Retained.filled_empty (P : k.Tally T → Prop) : ({} : Retained T k).Filled P := nofun

/-- What was drained so far has tallies with the property. -/
def Cycle.Filled (P : k.Tally T → Prop) (cycle : Cycle T k) : Prop :=
  ∀ e ∈ cycle.fresh.entries, P e.2.tally

namespace Collector

/-- All tallies of a collector have the property. -/
structure Filled (P : k.Tally T → Prop) (c : Collector T k) : Prop where
  live : ∀ s ∈ c.live, P s.handle.tally
  detached : ∀ s ∈ c.detached, P s.handle.tally
  retained : ∀ e ∈ c.retained.entries, e.2.Filled P

variable [Quantity T] {P : k.Tally T → Prop} {c : Collector T k} {cycle : Cycle T k}

namespace Filled

omit [Quantity T] in
/-- A new collector has no tallies. -/
theorem new (P : k.Tally T → Prop) (sampling : SamplingPlan T) (stream : Stream)
    (config : ReaderConfig) : (Collector.new sampling stream config : Collector T k).Filled P :=
  ⟨nofun, nofun, nofun⟩

/-! ## Series -/

omit [Quantity T] in
/-- Changing the series of an identity, if the change keeps their tallies so. -/
theorem updateSeries (h : c.Filled P) (id : Nat) {f : Series T k → Series T k}
    (hf : ∀ s, P s.handle.tally → P (f s).handle.tally) : (c.updateSeries id f).Filled P := by
  -- live and detached series are changed alike
  have hmap : ∀ l : List (Series T k), (∀ s ∈ l, P s.handle.tally) →
      ∀ s ∈ l.map (fun s => if s.id = id then f s else s), P s.handle.tally := by
    intro l hl s hs
    obtain ⟨t, ht, rfl⟩ := List.mem_map.1 hs
    split
    · exact hf t (hl t ht)
    · exact hl t ht
  exact ⟨hmap c.live h.live, hmap c.detached h.detached, h.retained⟩

/-- A new series has the tally of no recordings. -/
theorem openSeries (hP : k.Keeps P) (h : c.Filled P) (set : AttributeSet) :
    (c.openSeries set).2.Filled P := by
  refine ⟨fun s hs => ?_, h.detached, h.retained⟩
  rcases List.mem_append.1 hs with hs | hs
  · exact h.live s hs
  · rw [List.mem_singleton.1 hs]
    exact hP.fresh

/-- Acquiring opens one series at most, and leaves the tallies of the others. -/
theorem acquire (hP : k.Keeps P) (h : c.Filled P) (set : AttributeSet) :
    (c.acquire set).2.Filled P := by
  obtain ⟨count, hcases⟩ := c.acquire_cases set
  have hcount : ({ c with overflowCount := count } : Collector T k).Filled P :=
    ⟨h.live, h.detached, h.retained⟩
  obtain ⟨s, -, heq⟩ | ⟨new, -, -, heq⟩ := hcases
  · rw [heq]
    exact hcount.updateSeries s.id fun _ hs => hs
  · rw [heq]
    exact hcount.openSeries hP new

omit [Quantity T] in
/-- Releasing changes no tally. -/
theorem release (h : c.Filled P) (id : Nat) : (c.release id).Filled P := by
  have hupdate := h.updateSeries id (f := fun s => { s with holders := s.holders - 1 })
    fun _ hs => hs
  exact ⟨hupdate.live, fun s hs => hupdate.detached s (List.mem_filter.1 hs).1, hupdate.retained⟩

/-- A recording into a series is taken in by its tally. -/
theorem recordHeld (hP : k.Keeps P) (h : c.Filled P) (id : Nat) (r : Recording T) :
    (c.recordHeld id r).Filled P :=
  h.updateSeries id fun _ hs => hP.record r.value r.time hs

/-- A direct drain leaves an empty tally behind. -/
theorem drainHeld (hP : k.Keeps P) (h : c.Filled P) (id : Nat) (point : AttributeSet) :
    (c.drainHeld id point).2.Filled P :=
  h.updateSeries id fun _ hs => hP.drain hs point

/-- A recording by attributes is acquiring, recording and releasing. -/
theorem record (hP : k.Keeps P) (h : c.Filled P) (r : Recording T) : (c.record r).Filled P := by
  unfold Collector.record
  split
  · exact h
  · exact ((h.acquire hP _).recordHeld hP _ r).release _

/-! ## Collections -/

/-- Draining a series moves its tally into the cycle. -/
theorem drainSeries (hP : k.Keeps P) (h : c.Filled P) (hcycle : cycle.Filled P) (id : Nat) :
    (c.drainSeries cycle id).1.Filled P ∧ (c.drainSeries cycle id).2.Filled P := by
  unfold Collector.drainSeries
  cases hfind : c.live.find? (·.id == id) with
  | none => exact ⟨hcycle, h⟩
  | some s =>
    have hs : P s.handle.tally := h.live s (List.mem_of_find?_eq_some hfind)
    have hupdate : (c.updateSeries id fun t =>
        { t with handle := (s.handle.drain s.attributes).2 }).Filled P :=
      h.updateSeries id fun _ _ => hP.drain hs s.attributes
    -- the count of idle collections is no tally
    have hretain (idle : Nat → Nat) : ∀ e ∈ (c.retained.upsert s.attributes fun old =>
        { old.getD {} with idle := idle (old.getD {}).idle }).entries, e.2.Filled P :=
      Table.forall_upsert h.retained (Retained.filled_empty P) fun _ ha => ha
    dsimp only
    cases hfound : (s.handle.drain s.attributes).1 with
    | none => exact ⟨hcycle, hupdate.live, hupdate.detached, hretain (· + 1)⟩
    | some a =>
      have ha : P a.tally := Kind.Keeps.of_drain hs hfound
      refine ⟨?_, hupdate.live, hupdate.detached, hretain fun _ => 0⟩
      exact Table.forall_upsert (Q := fun a : Accumulation T k => P a.tally) hcycle ha fun _ _ => ha

/-- Draining the next of the pending series. -/
theorem drainNext (hP : k.Keeps P) (h : c.Filled P) (hcycle : cycle.Filled P) :
    (c.drainNext cycle).1.Filled P ∧ (c.drainNext cycle).2.Filled P := by
  unfold Collector.drainNext
  split
  · exact ⟨hcycle, h⟩
  · rename_i id rest _
    have hrest : ({ cycle with pending := rest } : Cycle T k).Filled P := hcycle
    exact h.drainSeries hP hrest id

/-- Evicting a series joins what is found late to what was found before. -/
theorem evict (hP : k.Keeps P) (h : c.Filled P) (hcycle : cycle.Filled P) (set : AttributeSet) :
    (c.evict cycle set).1.Filled P ∧ (c.evict cycle set).2.Filled P := by
  unfold Collector.evict
  cases hfind : c.find? set with
  | none => exact ⟨hcycle, h⟩
  | some s =>
    dsimp only
    by_cases hheld : 0 < s.holders
    · rw [if_pos hheld]
      exact ⟨hcycle, h⟩
    · rw [if_neg hheld]
      have hs : P s.handle.tally := h.live s (List.mem_of_find?_eq_some hfind)
      have hlive : ∀ t ∈ c.live.filter fun other => other.id != s.id, P t.handle.tally :=
        fun t ht => h.live t (List.mem_filter.1 ht).1
      cases hfound : (s.handle.drain set).1 with
      | none => exact ⟨hcycle, hlive, h.detached, h.retained⟩
      | some late =>
        have ha : P late.tally := Kind.Keeps.of_drain hs hfound
        refine ⟨?_, hlive, h.detached, h.retained⟩
        exact Table.forall_upsert (Q := fun a : Accumulation T k => P a.tally) hcycle ha
          fun _ hb => hP.merge hb ha

omit [Quantity T] in
/-- Steps that keep tallies filled keep them so when they follow one another. -/
theorem foldl {α : Type} {f : Cycle T k × Collector T k → α → Cycle T k × Collector T k}
    (hf : ∀ cycle c a, cycle.Filled P → c.Filled P → (f (cycle, c) a).1.Filled P ∧
      (f (cycle, c) a).2.Filled P)
    (l : List α) (h : c.Filled P) (hcycle : cycle.Filled P) :
    (l.foldl f (cycle, c)).1.Filled P ∧ (l.foldl f (cycle, c)).2.Filled P := by
  induction l generalizing c cycle with
  | nil => exact ⟨hcycle, h⟩
  | cons a rest ih =>
    obtain ⟨hcycle', h'⟩ := hf cycle c a hcycle h
    exact ih h' hcycle'

/-- Evicting all that is idle, one after the other. -/
theorem evictIdle (hP : k.Keeps P) (h : c.Filled P) (hcycle : cycle.Filled P) :
    (c.evictIdle cycle).1.Filled P ∧ (c.evictIdle cycle).2.Filled P := by
  unfold Collector.evictIdle
  split
  · exact ⟨hcycle, h⟩
  · exact foldl (fun _ _ set hcycle h => h.evict hP hcycle set) _ h hcycle

omit [Quantity T] in
/-- Erasing leaves some of what was kept. -/
theorem eraseAll (retained : Table AttributeSet (Retained T k))
    (h : ∀ e ∈ retained.entries, e.2.Filled P) (gone : List AttributeSet) :
    ∀ e ∈ (retained.eraseAll gone).entries, e.2.Filled P := by
  rw [Table.eraseAll_entries]
  exact fun e he => h e (List.mem_filter.1 he).1

/-- Absorbing a cycle joins what it found to what is kept. -/
theorem absorbAll (hP : k.Keeps P) (h : c.Filled P) (hcycle : cycle.Filled P) :
    ∀ e ∈ (absorbAll c.retained cycle.fresh).entries, e.2.Filled P := by
  -- the induction is over the findings of the cycle, whatever the table holds by then
  have hfold : ∀ (found : List (AttributeSet × Accumulation T k))
      (retained : Table AttributeSet (Retained T k)), (∀ e ∈ found, P e.2.tally) →
      (∀ e ∈ retained.entries, e.2.Filled P) →
      ∀ e ∈ (found.foldl (fun retained e => absorb retained e.1 e.2) retained).entries,
        e.2.Filled P := by
    intro found
    induction found with
    | nil => exact fun _ _ hretained => hretained
    | cons d rest ih =>
      intro retained hfound hretained
      obtain ⟨hd, hrest⟩ := List.forall_mem_cons.1 hfound
      refine ih _ hrest (Table.forall_upsert hretained ?_ fun old hold => ?_)
      -- nothing was kept of the set, and it takes over what was found
      · rintro a ⟨⟩
        exact hd
      · rintro a ⟨⟩
        exact hP.join hold hd
  exact hfold cycle.fresh.entries c.retained hcycle h.retained

/-- What a cycle reports has tallies with the property. -/
theorem output (hP : k.Keeps P) (h : c.Filled P) (hcycle : cycle.Filled P) :
    ∀ e ∈ (c.output cycle).entries, P e.2.tally := by
  unfold Collector.output
  cases c.config.temporality with
  | delta => exact hcycle
  | cumulative =>
    intro e he
    obtain ⟨d, hd, hde⟩ := List.mem_filterMap.1 he
    obtain ⟨a, ha, rfl⟩ := Option.map_eq_some_iff.1 hde
    exact h.absorbAll hP hcycle d hd a ha

/-- The end of a collection keeps and erases only. -/
theorem finish (hP : k.Keeps P) (h : c.Filled P) (hcycle : cycle.Filled P) :
    (c.finish cycle).2.Filled P := by
  rw [finish_snd]
  refine ⟨h.live, h.detached, eraseAll _ ?_ _⟩
  cases c.config.temporality with
  | delta => exact h.retained
  | cumulative => exact h.absorbAll hP hcycle

/-- The readings of a report are those of tallies with the property. -/
def Reports (P : k.Tally T → Prop) (m : Option (Metric T k)) : Prop :=
  ∀ metric, m = some metric → ∀ p ∈ metric.points, ∃ t, P t ∧ p.reading = k.read t

/-- A report has what the cycle found, or what is kept with it. -/
theorem reports_finish (hP : k.Keeps P) (h : c.Filled P) (hcycle : cycle.Filled P) :
    Reports P (c.finish cycle).1 := by
  intro metric hmetric p hp
  rw [finish_fst] at hmetric
  split at hmetric
  · cases hmetric
  · rw [← Option.some.inj hmetric] at hp
    obtain ⟨e, he, rfl⟩ := List.mem_map.1 hp
    exact ⟨e.2.tally, h.output hP hcycle e he, rfl⟩

/-- A collection keeps all tallies filled, and reports only such tallies. -/
theorem collect (hP : k.Keeps P) (h : c.Filled P) (start time : Time) :
    Reports P (c.collect start time).1 ∧ (c.collect start time).2.Filled P := by
  have hbegin : (c.beginCycle start time).2.Filled P := ⟨h.live, h.detached, h.retained⟩
  have hempty : (c.beginCycle start time).1.Filled P := nofun
  obtain ⟨hdrained, hdrain⟩ := foldl (f := fun s (_ : Nat) => s.2.drainNext s.1)
    (fun _ _ _ hcycle h => h.drainNext hP hcycle) (c.beginCycle start time).1.pending hbegin hempty
  obtain ⟨hevicted, hevict⟩ := hdrain.evictIdle hP hdrained
  exact ⟨hevict.reports_finish hP hevicted, hevict.finish hP hevicted⟩

/-- A shutdown is a last collection, after which nothing is live or kept. -/
theorem shutdown (hP : k.Keeps P) (h : c.Filled P) (start time : Time) :
    Reports P (c.shutdown start time).1 ∧ (c.shutdown start time).2.Filled P := by
  unfold Collector.shutdown
  split
  · exact ⟨nofun, h⟩
  · have hclosing : ({ c with shutDown := true } : Collector T k).Filled P :=
      ⟨h.live, h.detached, h.retained⟩
    obtain ⟨hlast, hcollect⟩ := hclosing.collect hP start time
    refine ⟨hlast, nofun, fun s hs => ?_, nofun⟩
    rcases List.mem_append.1 hs with hs | hs
    · exact hcollect.detached s hs
    · exact hcollect.live s (List.mem_filter.1 hs).1

/-! ## Runs -/

/-- Every command keeps all tallies filled, and reports only such tallies. -/
theorem perform (hP : k.Keeps P) (h : c.Filled P) (command : Command T) :
    (∀ m, (c.perform command).1 = .reported m → Reports P m) ∧ (c.perform command).2.Filled P := by
  cases command with
  | record r => exact ⟨nofun, h.record hP r⟩
  | hold set => exact ⟨nofun, h.acquire hP set⟩
  | recordHeld id r => exact ⟨nofun, h.recordHeld hP id r⟩
  | drainHeld id point => exact ⟨nofun, h.drainHeld hP id point⟩
  | release id => exact ⟨nofun, h.release id⟩
  | collect start time =>
    obtain ⟨hreport, hcollect⟩ := h.collect hP start time
    exact ⟨fun m hm => Reply.reported.inj hm ▸ hreport, hcollect⟩
  | shutdown start time =>
    obtain ⟨hreport, hshutdown⟩ := h.shutdown hP start time
    exact ⟨fun m hm => Reply.reported.inj hm ▸ hreport, hshutdown⟩

/-- **Every tally that is reported.** A property that tallies keep holds of the tally of every point
in every report of a run. -/
theorem reading_reported (hP : k.Keeps P) (h : c.Filled P) {commands : List (Command T)}
    {m : Metric T k} (hm : .reported (some m) ∈ (c.run commands).1) :
    ∀ p ∈ m.points, ∃ t, P t ∧ p.reading = k.read t := by
  induction commands generalizing c with
  | nil => cases hm
  | cons command rest ih =>
    obtain ⟨hreport, hperform⟩ := h.perform hP command
    rcases List.mem_cons.1 hm with hm | hm
    · exact hreport _ hm.symm m rfl
    · exact ih hperform hm

end Filled

end Collector

end Metering
