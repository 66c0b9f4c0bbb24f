import Metering.Proofs.Collector.Hands
import Metering.Proofs.Collector.Roster
import Metering.Proofs.Collector.Tracking

/-!
# Which series a collection evicts

The count of idle collections that is kept of a series is one of its `Visit`s: how many of the latest
collections came to the series and found nothing (`Idles`). A new series starts the count again, even
under a set that had a series before, and so does a recording; holders have no part in it. Together
with `Hands`, which counts the holders, it tells exactly which series a collection evicts
(`evictions_are_exact`).
-/

namespace Metering

variable {T : Type} {k : Kind}

/-- What became of one series in a collection. -/
inductive Visit where
  /-- The series was not live. -/
  | absent
  /-- The drain found nothing. -/
  | idle
  /-- The drain found recordings. -/
  | busy
deriving DecidableEq, Repr

namespace Visit

/-- The count of idle visits after one more. -/
def count (n : Nat) : Visit → Nat
  | .idle => n + 1
  | .absent | .busy => 0

/-- How many of the latest visits found nothing. -/
def idleFor (visits : List Visit) : Nat := visits.foldl count 0

/-- One more visit ends the stretch of idle ones or makes it longer. -/
theorem idleFor_concat (visits : List Visit) (v : Visit) :
    idleFor (visits ++ [v]) = count (idleFor visits) v :=
  List.foldl_concat ..

/-- Visits found nothing for so long if that many of the latest ones all did. -/
theorem le_idleFor_iff {m : Nat} {visits : List Visit} :
    m ≤ idleFor visits ↔ List.replicate m .idle <:+ visits := by
  induction visits using List.reverseRecOn generalizing m with
  | nil =>
    rw [List.suffix_nil, List.replicate_eq_nil_iff]
    exact Nat.le_zero
  | append_singleton visits v ih =>
    cases m with
    | zero => simp
    | succ m =>
      rw [idleFor_concat, List.replicate_succ', List.suffix_concat_iff]
      cases v with
      | idle =>
        rw [count, Nat.succ_le_succ_iff, ih]
        simp
      | absent => simp [count]
      | busy => simp [count]

end Visit

namespace Collector

variable [Quantity T]

/-- What becomes of the series of an identity in the next collection. -/
def visit (c : Collector T k) (id : Nat) : Visit :=
  match c.live.find? (·.id == id) with
  | none => .absent
  | some s => if s.yield.isSome then .busy else .idle

/-- The visits of a command to the series of an identity: collections make one, and other commands
none. -/
def visitsOf (c : Collector T k) (id : Nat) : Command T → List Visit
  | .collect _ _ => [c.visit id]
  | _ => []

/-- The visits to the series of an identity, one for every collection, in their order. -/
def visits (c : Collector T k) (id : Nat) : List (Command T) → List Visit
  | [] => []
  | command :: rest => c.visitsOf id command ++ (c.perform command).2.visits id rest

/-- The last command visits the series that the commands before it leave. -/
theorem visits_concat (c : Collector T k) (id : Nat) (commands : List (Command T))
    (command : Command T) :
    c.visits id (commands ++ [command]) =
      c.visits id commands ++ (c.run commands).2.visitsOf id command := by
  induction commands generalizing c with
  | nil => simp [visits, Collector.run]
  | cons first rest ih =>
    rw [List.cons_append, visits, ih, visits, Collector.run, List.append_assoc]

/-- A live series is visited by a collection, and is busy if a drain finds something. -/
theorem visit_of_live {c : Collector T k} (h : c.Distinct) {s : Series T k} (hs : s ∈ c.live) :
    c.visit s.id = if s.yield.isSome then .busy else .idle := by
  rw [visit, find?_id h.live_ids hs]

/-- A series that is yet to be opened is not found. -/
theorem visit_of_unopened {c : Collector T k} (h : c.Distinct) {id : Nat} (hid : c.nextId ≤ id) :
    c.visit id = .absent := by
  have hnone : c.live.find? (·.id == id) = none := by
    refine List.find?_eq_none.2 fun s hs heq => ?_
    have hlt : s.id < c.nextId := h.lt_nextId s.name (List.mem_map_of_mem hs)
    have hsid : s.id = id := by simpa using heq
    omega
  rw [visit, hnone]

/-- What is kept of each live series counts the latest visits that found nothing. -/
structure Idles (c : Collector T k) (visited : Nat → List Visit) : Prop where
  unopened : ∀ id, c.nextId ≤ id → Visit.idleFor (visited id) = 0
  idle : ∀ n ∈ c.names, (c.kept n.2).idle = Visit.idleFor (visited n.1)

namespace Idles

variable {c : Collector T k} {visited : Nat → List Visit}

omit [Quantity T] in
/-- A new collector visited nothing. -/
theorem new (sampling : SamplingPlan T) (stream : Stream) (config : ReaderConfig) :
    (Collector.new sampling stream config : Collector T k).Idles fun _ => [] :=
  ⟨fun _ _ => rfl, nofun⟩

omit [Quantity T] in
/-- Steps that change neither the names of the series nor what is kept of them. -/
theorem of_names_eq (h : c.Idles visited) {c' : Collector T k} (hnames : c'.names = c.names)
    (hretained : c'.retained = c.retained) (hnext : c'.nextId = c.nextId) : c'.Idles visited := by
  refine ⟨hnext ▸ h.unopened, fun n hn => ?_⟩
  rw [hnames] at hn
  rw [kept, hretained]
  exact h.idle n hn

/-- The count of a new series starts at zero. -/
theorem openSeries (h : c.Idles visited) (htracked : c.Tracked) {set : AttributeSet}
    (hnew : c.find? set = none) : (c.openSeries set).2.Idles visited := by
  refine ⟨fun id hid => h.unopened id (Nat.le_of_succ_le hid), fun n hn => ?_⟩
  rw [names_openSeries] at hn
  rcases List.mem_append.1 hn with hn | hn
  · exact h.idle n hn
  · rw [List.mem_singleton.1 hn]
    show (c.kept set).idle = Visit.idleFor (visited c.nextId)
    rw [htracked.kept_of_new hnew, h.unopened c.nextId (Nat.le_refl _)]

/-- Acquiring visits nothing, and a new series was never visited. -/
theorem acquire (h : c.Idles visited) (htracked : c.Tracked) (set : AttributeSet) :
    (c.acquire set).2.Idles visited := by
  obtain ⟨count, ⟨s, -, heq⟩ | ⟨new, -, hnew, heq⟩⟩ := c.acquire_cases set
  · rw [heq]
    exact h.of_names_eq (names_take _ s) rfl rfl
  · have hcount : ({ c with overflowCount := count } : Collector T k).Idles visited :=
      h.of_names_eq rfl rfl rfl
    rw [heq]
    exact hcount.openSeries (htracked.of_names_eq rfl rfl) hnew

/-- A collection visits every live series once more. -/
theorem collect (h : c.Idles visited) (hdistinct : c.Distinct) (hdetached : c.detached = [])
    (htracked : c.Tracked) (start time : Time) :
    (c.collect start time).2.Idles fun id => visited id ++ [c.visit id] := by
  have hnext : (c.collect start time).2.nextId = c.nextId :=
    congrArg Frame.nextId (frame_collect c start time)
  refine ⟨fun id hid => ?_, fun n hn => ?_⟩
  · rw [Visit.idleFor_concat, visit_of_unopened hdistinct (hnext ▸ hid), Visit.count]
  · obtain ⟨s, hs, hevicts, rfl⟩ := mem_names_collect hdistinct hdetached htracked hn
    have hidle : (c.kept s.attributes).idle = Visit.idleFor (visited s.id) :=
      h.idle s.name (List.mem_map_of_mem hs)
    show ((c.collect start time).2.kept s.attributes).idle =
      Visit.idleFor (visited s.id ++ [c.visit s.id])
    rw [kept_collect hdistinct hdetached htracked start time hs hevicts, Visit.idleFor_concat,
      visit_of_live hdistinct hs, ← hidle]
    show (if s.yield.isSome then 0 else (c.kept s.attributes).idle + 1) = _
    cases s.yield <;> rfl

/-- What every command but a shutdown adds to the visits. -/
theorem perform (h : c.Idles visited) (hdistinct : c.Distinct) (hdetached : c.detached = [])
    (htracked : c.Tracked) {command : Command T} (hrunning : ¬ command.IsShutdown) :
    (c.perform command).2.Idles fun id => visited id ++ c.visitsOf id command := by
  have hvisitless {c' : Collector T k} (h' : c'.Idles visited) :
      c'.Idles fun id => visited id ++ [] := by
    simpa only [List.append_nil] using h'
  -- only a collection visits a series
  cases command with
  | record r =>
    refine hvisitless ?_
    show (c.record r).Idles visited
    unfold record
    split
    · exact h
    · exact (h.acquire htracked _).of_names_eq ((names_release _ _).trans (names_recordHeld _ _ _))
        rfl rfl
  | hold set => exact hvisitless (h.acquire htracked set)
  | recordHeld id r => exact hvisitless (h.of_names_eq (c.names_recordHeld id r) rfl rfl)
  | drainHeld id point => exact hvisitless (h.of_names_eq (c.names_drainHeld id point) rfl rfl)
  | release id => exact hvisitless (h.of_names_eq (c.names_release id) rfl rfl)
  | collect start time => exact h.collect hdistinct hdetached htracked start time
  | shutdown start time => exact absurd trivial hrunning

/-- Over a run, what is kept counts the latest visits that found nothing. -/
theorem run (h : c.Idles visited) {taken given : Nat → Nat} (hhands : c.Hands taken given)
    (hwithin : c.WithinLimit) (htracked : c.Tracked) {commands : List (Command T)}
    (hpermits : c.PermitsAll commands)
    (hreflexive : ∀ command ∈ commands, command.IsReflexive c.config.filter) :
    (c.run commands).2.Idles fun id => visited id ++ c.visits id commands := by
  induction commands generalizing c visited taken given with
  | nil =>
    simp only [visits, List.append_nil]
    exact h
  | cons command rest ih =>
    have hconfig := config_perform c command
    have hrest := ih (h.perform hwithin.toDistinct hhands.detached htracked hpermits.1.1)
      (hhands.perform hwithin hpermits.1) (hwithin.perform command)
      (tracked_perform hwithin.toDistinct htracked (hreflexive command List.mem_cons_self))
      hpermits.2 fun other hother => hconfig ▸ hreflexive other (List.mem_cons_of_mem _ hother)
    simp only [visits, ← List.append_assoc]
    exact hrest

/-- The next collection evicts the series that nobody holds and that it finds idle for so long. -/
theorem evicts_iff (h : c.Idles visited) (hdistinct : c.Distinct) {s : Series T k}
    (hs : s ∈ c.live) :
    c.evicts s = true ↔ ∃ m, c.config.maxIdle = some m ∧ s.holders = 0 ∧
      List.replicate m .idle <:+ visited s.id ++ [c.visit s.id] := by
  have hidle : (c.kept s.attributes).idle = Visit.idleFor (visited s.id) :=
    h.idle s.name (List.mem_map_of_mem hs)
  have htick : (s.tick (some (c.kept s.attributes))).idle =
      Visit.idleFor (visited s.id ++ [c.visit s.id]) := by
    rw [Visit.idleFor_concat, visit_of_live hdistinct hs, Series.tick, Option.getD_some, hidle]
    cases s.yield <;> rfl
  rw [evicts, htick]
  cases c.config.maxIdle with
  | none => simp
  | some m => simp [← Visit.le_idleFor_iff, and_comm]

end Idles

/-! ## What is never taken away -/

variable {c : Collector T k}

/-- Only collections and shutdowns take series away. -/
theorem names_perform_of_visitless {command : Command T} (hrunning : ¬ command.IsShutdown)
    (hvisits : ∀ start time, command ≠ .collect start time) :
    c.names <+: (c.perform command).2.names := by
  have hacquire (set : AttributeSet) : c.names <+: (c.acquire set).2.names := by
    have hroster := c.roster.names_acquire set
    rwa [← c.roster_acquire set] at hroster
  cases command with
  | record r =>
    show c.names <+: (c.record r).names
    unfold record
    split
    · exact List.prefix_rfl
    · simpa using hacquire _
  | hold set => exact hacquire set
  | recordHeld id r => exact (c.names_recordHeld id r).symm ▸ List.prefix_rfl
  | drainHeld id point => exact (c.names_drainHeld id point).symm ▸ List.prefix_rfl
  | release id => exact (c.names_release id).symm ▸ List.prefix_rfl
  | collect start time => exact absurd rfl (hvisits start time)
  | shutdown start time => exact absurd trivial hrunning

/-- Without a limit on idle collections, no series is taken away until a shutdown. -/
theorem names_run_of_maxIdle_none {taken given : Nat → Nat} (hhands : c.Hands taken given)
    (hwithin : c.WithinLimit) (hidle : c.config.maxIdle = none) {commands : List (Command T)}
    (hpermits : c.PermitsAll commands) : c.names <+: (c.run commands).2.names := by
  induction commands generalizing c taken given with
  | nil => exact List.prefix_rfl
  | cons command rest ih =>
    have hconfig := config_perform c command
    have hstep : c.names <+: (c.perform command).2.names := by
      by_cases hcollect : ∃ start time, command = .collect start time
      · obtain ⟨start, time, rfl⟩ := hcollect
        have hroster := roster_collect hwithin.toDistinct hhands.detached hidle start time
        have hnames : (c.collect start time).2.names = c.names := congrArg Roster.names hroster
        exact hnames.symm ▸ List.prefix_rfl (l := c.names)
      · exact names_perform_of_visitless hpermits.1.1 fun start time h => hcollect ⟨start, time, h⟩
    exact hstep.trans (ih (hhands.perform hwithin hpermits.1) (hwithin.perform command)
      (hconfig ▸ hidle) hpermits.2)

/-- **Evictions are exact.** Take any commands but shutdowns, among them drains by those who hold a
series, that look only for sets which equal themselves, and a collection after them. For each live
series, the overflow series included, its holders are those that took it in hand and did not give it
out of hand. The collection evicts the series if and only if nobody holds it and so many of the
latest collections as the configuration says, this one included, came to the series and found nothing.
Any other series is left, drained, with its holders, and nothing else is. If the configuration says
nothing, then no series ever went. -/
theorem evictions_are_exact (sampling : SamplingPlan T) (stream : Stream) (config : ReaderConfig)
    {commands : List (Command T)}
    (hpermits : (new sampling stream config : Collector T k).PermitsAll commands)
    (hreflexive : ∀ command ∈ commands, command.IsReflexive config.filter) (start time : Time) :
    let first : Collector T k := new sampling stream config
    let c := (first.run commands).2
    let left := (c.collect start time).2.live
    (∀ s ∈ c.live,
      s.holders + commands.countP (·.releases s.id) = (first.run commands).1.countP (·.holds s.id) ∧
      ((∀ t ∈ left, t.id ≠ s.id) ↔ ∃ m, config.maxIdle = some m ∧ s.holders = 0 ∧
        List.replicate m .idle <:+ first.visits s.id (commands ++ [.collect start time])) ∧
      ((∃ t ∈ left, t.id = s.id) → s.drained ∈ left)) ∧
    (∀ t ∈ left, ∃ s ∈ c.live, s.drained = t) ∧
    (config.maxIdle = none →
      ∀ before later, commands = before ++ later → (first.run before).2.names <+: c.names) := by
  intro first c left
  have hwithin : first.WithinLimit := .new sampling stream config
  have hnew : first.Hands (fun _ => 0) fun _ => 0 := .new sampling stream config
  have hhands := hnew.run hwithin hpermits
  have hdistinct : c.Distinct := (hwithin.run commands).toDistinct
  have htracked : c.Tracked := hwithin.tracked_run (.new sampling stream config) hreflexive
  have hidles : c.Idles fun id => [] ++ first.visits id commands :=
    (Idles.new sampling stream config).run hnew hwithin (.new sampling stream config) hpermits
      hreflexive
  have hconfig : c.config = config := config_run first commands
  have hleft : left = (c.live.filter (!c.evicts ·)).map Series.drained :=
    congrArg Collector.live (collect_tracked hdistinct hhands.detached htracked start time)
  have hmem (t : Series T k) : t ∈ left ↔ ∃ s ∈ c.live, c.evicts s = false ∧ s.drained = t := by
    simp [hleft, and_assoc]
  -- the identity of a live series is that of its drained series alone
  have hstays (s : Series T k) (hs : s ∈ c.live) :
      (∃ t ∈ left, t.id = s.id) ↔ c.evicts s = false := by
    constructor
    · rintro ⟨t, ht, hid⟩
      obtain ⟨u, hu, hevicts, rfl⟩ := (hmem t).1 ht
      rwa [← hdistinct.id_inj hu hs hid]
    · exact fun hevicts => ⟨s.drained, (hmem _).2 ⟨s, hs, hevicts, rfl⟩, rfl⟩
  refine ⟨fun s hs => ⟨?_, ?_, fun h => (hmem _).2 ⟨s, hs, (hstays s hs).1 h, rfl⟩⟩,
    fun t ht => ?_, fun hidle before later hcommands => ?_⟩
  · simpa using hhands.holders s hs
  · have hevicts := hidles.evicts_iff hdistinct hs
    rw [hconfig] at hevicts
    rw [visits_concat, visitsOf]
    refine Iff.trans ?_ hevicts
    rw [← Bool.not_eq_false, ← hstays s hs]
    simp
  · obtain ⟨s, hs, -, hst⟩ := (hmem t).1 ht
    exact ⟨s, hs, hst⟩
  · subst hcommands
    obtain ⟨hbefore, hlater⟩ := hpermits.of_append
    have hidle' : (first.run before).2.config.maxIdle = none := by
      rw [config_run]
      exact hidle
    have hnames := names_run_of_maxIdle_none (hnew.run hwithin hbefore) (hwithin.run before) hidle'
      hlater
    rwa [← run_append] at hnames

/-- One series at most is tracked, and evicted after two idle collections. The overflow series is
held all the time and never recorded into. -/
def lingeringConfig : ReaderConfig :=
  { maxIdle := some 2, maxIdle_ne_zero := by decide, limit := 1, limit_pos := Nat.one_pos }

def lingeringCommands : List (Command UInt64) :=
  [.record { value := 5, attributes := [⟨"a", .int 1⟩] },
    .hold (.ofList [⟨"a", .int 2⟩]),
    .collect 0 1,
    .collect 0 2]

/-- After one collection that found its recording and two that found nothing, the series `a = 1` goes;
the overflow series, idle for longer, stays. -/
theorem evictions_are_exact_lingering :
    let first : Collector UInt64 (.sum true) := new .none default lingeringConfig
    first.PermitsAll lingeringCommands ∧
      (∀ command ∈ lingeringCommands, command.IsReflexive lingeringConfig.filter) ∧
      (first.run lingeringCommands).2.live.map (·.id) = [0, 1] ∧
      (∀ t ∈ ((first.run lingeringCommands).2.collect 0 3).2.live, t.id ≠ 0) ∧
      ∃ t ∈ ((first.run lingeringCommands).2.collect 0 3).2.live, t.id = 1 := by
  intro first
  have hpermits : first.PermitsAll lingeringCommands := by decide +kernel
  have hreflexive : ∀ command ∈ lingeringCommands, command.IsReflexive lingeringConfig.filter := by
    decide +kernel
  have hids : (first.run lingeringCommands).2.live.map (·.id) = [0, 1] := by decide +kernel
  have hidle : ∀ s ∈ (first.run lingeringCommands).2.live, s.id = 0 → s.holders = 0 ∧
      List.replicate 2 .idle <:+ first.visits s.id (lingeringCommands ++ [.collect 0 3]) := by
    decide +kernel
  have hheld : ∀ s ∈ (first.run lingeringCommands).2.live, s.id = 1 → s.holders ≠ 0 := by
    decide +kernel
  obtain ⟨hseries, -, -⟩ := evictions_are_exact .none default lingeringConfig hpermits hreflexive 0 3
  have hlive (id : Nat) (hid : id ∈ [0, 1]) :
      ∃ s ∈ (first.run lingeringCommands).2.live, s.id = id := by
    rw [← hids] at hid
    exact List.mem_map.1 hid
  -- the steps of the run are not to be compared, so both sides name it alike
  simp only [first] at hpermits hids hidle hheld hlive ⊢
  obtain ⟨s, hs, hid⟩ := hlive 0 (by simp)
  obtain ⟨u, hu, huid⟩ := hlive 1 (by simp)
  refine ⟨hpermits, hreflexive, hids, ?_, ?_⟩
  · obtain ⟨hholders, hsuffix⟩ := hidle s hs hid
    rw [← hid]
    exact (hseries s hs).2.1.2 ⟨2, rfl, hholders, hsuffix⟩
  · by_contra hgone
    obtain ⟨m, -, hholders, -⟩ := (hseries u hu).2.1.1 fun t ht htid => hgone ⟨t, ht, htid.trans huid⟩
    exact hheld u hu huid hholders

end Collector

end Metering
