import Metering.Proofs.Collector.Settings

/-!
# After a shutdown

A shutdown leaves a collector without live series and without anything kept (`Closed`). Recordings do
not change that, be they made by attributes or into series that are in hand, and neither do
collections, so nothing is ever reported again. Only taking a series in hand opens one, shut down or
not.
-/

namespace Metering

variable {T : Type} {k : Kind} [Quantity T]

/-- The command takes a series in hand. -/
def Command.IsHold : Command T → Prop
  | .hold _ => True
  | _ => False

instance : (command : Command T) → Decidable command.IsHold
  | .hold _ => inferInstanceAs (Decidable True)
  | .record _ | .recordHeld _ _ | .drainHeld _ _ | .release _ | .collect _ _ | .shutdown _ _ =>
    inferInstanceAs (Decidable False)

namespace Collector

/-- The collector was shut down, and there is nothing to collect. -/
structure Closed (c : Collector T k) : Prop where
  shutDown : c.shutDown = true
  live : c.live = []
  retained : c.retained.entries = []

namespace Closed

variable {c : Collector T k}

omit [Quantity T] in
/-- A change to series in hand finds no live series. -/
theorem updateSeries (h : c.Closed) (id : Nat) (f : Series T k → Series T k) :
    (c.updateSeries id f).Closed where
  shutDown := h.shutDown
  live := by rw [Collector.updateSeries, h.live, List.map_nil]
  retained := h.retained

/-- A collection has nothing to drain, to evict or to report. -/
theorem collect (h : c.Closed) (start time : Time) :
    (c.collect start time).1 = none ∧ (c.collect start time).2.Closed := by
  let cycle : Cycle T k := ⟨⟨start, c.lastCollection.getD start, time⟩, [], {}, []⟩
  let begun : Collector T k := { c with lastCollection := some time }
  have hbegin : c.beginCycle start time = (cycle, begun) := by
    have hpending : c.live.map (·.id) = [] := by rw [h.live, List.map_nil]
    exact congrArg (fun pending => (({ cycle with pending } : Cycle T k), begun)) hpending
  have hdrain : begun.drainPending cycle = (cycle, begun) := rfl
  have hevict : begun.evictIdle cycle = (cycle, begun) := by
    -- nothing is kept either, so nothing has been idle
    have hidle (limit : Nat) : begun.idleSeries limit = [] := by
      show (c.retained.entries.filter _).map _ = []
      rw [h.retained]
      rfl
    unfold evictIdle
    split
    · rfl
    · rw [hidle, List.foldl_nil]
  have hcollect : c.collect start time = begun.finish cycle := by
    simp only [Collector.collect, hbegin, hdrain, hevict]
  have hempty : begun.retained = ⟨[]⟩ := congrArg Table.mk h.retained
  rw [hcollect, finish, hempty]
  cases begun.config.temporality with
  | delta => exact ⟨rfl, h.shutDown, h.live, rfl⟩
  | cumulative => exact ⟨rfl, h.shutDown, h.live, rfl⟩

/-- As long as no series is taken in hand, nothing is reported and nothing opens. -/
theorem perform (h : c.Closed) {command : Command T} (hhold : ¬ command.IsHold) :
    (∀ m, (c.perform command).1 = .reported m → m = none) ∧ (c.perform command).2.Closed := by
  cases command with
  | record r =>
    refine ⟨nofun, ?_⟩
    show (c.record r).Closed
    rw [record, h.shutDown]
    exact h
  | hold set => exact absurd trivial hhold
  | recordHeld id r => exact ⟨nofun, h.updateSeries id _⟩
  | drainHeld id point => exact ⟨nofun, h.updateSeries id _⟩
  | release id =>
    have hupdate := h.updateSeries id fun s => { s with holders := s.holders - 1 }
    exact ⟨nofun, hupdate.shutDown, hupdate.live, hupdate.retained⟩
  | collect start time =>
    obtain ⟨hnone, hclosed⟩ := h.collect start time
    exact ⟨fun m hm => (Reply.reported.inj hm).symm.trans hnone, hclosed⟩
  | shutdown start time =>
    have hshutdown : c.shutdown start time = (none, c) := by rw [Collector.shutdown, h.shutDown]; rfl
    refine ⟨fun m hm => ?_, ?_⟩
    · exact (Reply.reported.inj hm).symm.trans (congrArg Prod.fst hshutdown)
    · show (c.shutdown start time).2.Closed
      rw [hshutdown]
      exact h

theorem run (h : c.Closed) {commands : List (Command T)}
    (hhold : ∀ command ∈ commands, ¬ command.IsHold) :
    (∀ m, .reported m ∈ (c.run commands).1 → m = none) ∧ (c.run commands).2.Closed := by
  induction commands generalizing c with
  | nil => exact ⟨nofun, h⟩
  | cons command rest ih =>
    obtain ⟨hreply, hclosed⟩ := h.perform (hhold command List.mem_cons_self)
    obtain ⟨hreplies, hrest⟩ := ih hclosed fun other hother =>
      hhold other (List.mem_cons_of_mem _ hother)
    refine ⟨fun m hm => ?_, hrest⟩
    rcases List.mem_cons.1 hm with hm | hm
    · exact hreply m hm.symm
    · exact hreplies m hm

end Closed

/-- The first shutdown gives up everything. -/
theorem closed_shutdown {c : Collector T k} (h : c.shutDown = false) (start time : Time) :
    (c.shutdown start time).2.Closed := by
  have hframe := frame_collect { c with shutDown := true } start time
  rw [Collector.shutdown, h]
  exact ⟨congrArg Frame.shutDown hframe, rfl, rfl⟩

/-- **Shutdown is terminal for all that does not take a series in hand.** Once a collector was shut
down, whatever is recorded by attributes or into series that were in hand before, and however often
it is collected or shut down again, nothing is reported and no series is live. -/
theorem shutdown_is_terminal {c : Collector T k} (hrunning : c.shutDown = false)
    (start time : Time) {commands : List (Command T)}
    (hhold : ∀ command ∈ commands, ¬ command.IsHold) :
    let closed := (c.shutdown start time).2
    closed.seriesCount = 0 ∧
      (∀ m, .reported m ∈ (closed.run commands).1 → m = none) ∧
      (closed.run commands).2.seriesCount = 0 := by
  intro closed
  have hclosed : closed.Closed := closed_shutdown hrunning start time
  obtain ⟨hreplies, hrest⟩ := hclosed.run hhold
  exact ⟨congrArg List.length hclosed.live, hreplies, congrArg List.length hrest.live⟩

/-- A series is in hand, and holds a recording, when the collector is shut down. -/
def heldBefore : Collector UInt64 (.sum true) :=
  let c : Collector UInt64 (.sum true) := new .none default default
  (c.run [.hold (.ofList [⟨"a", .int 1⟩]), .recordHeld 0 { value := 2 }]).2

/-- The series is still recorded into, and its set is recorded anew. -/
def commandsAfter : List (Command UInt64) :=
  [.recordHeld 0 { value := 3 },
    .record { value := 5, attributes := [⟨"a", .int 1⟩] },
    .collect 0 2,
    .release 0,
    .shutdown 0 3]

theorem shutdown_is_terminal_while_held :
    heldBefore.shutDown = false ∧ heldBefore.seriesCount = 1 ∧
      (∀ command ∈ commandsAfter, ¬ command.IsHold) ∧
      (∀ m, .reported m ∈ ((heldBefore.shutdown 0 1).2.run commandsAfter).1 → m = none) ∧
      ((heldBefore.shutdown 0 1).2.run commandsAfter).2.seriesCount = 0 := by
  have hrunning : heldBefore.shutDown = false := by decide +kernel
  have hhold : ∀ command ∈ commandsAfter, ¬ command.IsHold := by decide +kernel
  obtain ⟨-, hreplies, hcount⟩ := shutdown_is_terminal hrunning 0 1 hhold
  exact ⟨hrunning, by decide +kernel, hhold, hreplies, hcount⟩

/-- Taking a series in hand opens it in a collector that was shut down, and what is then recorded is
reported. -/
theorem hold_reopens_after_shutdown :
    let closed : Collector UInt64 (.sum true) := ((new .none default {}).shutdown 0 1).2
    let reopened := (closed.run [.hold (.ofList [⟨"a", .int 1⟩]), .recordHeld 0 { value := 5 }]).2
    closed.shutDown = true ∧ reopened.seriesCount = 1 ∧
      (reopened.collect 0 2).1.map (fun m => m.points.map (·.reading.value)) = some [5] := by
  decide +kernel

end Collector

end Metering
