import Metering.Proofs.Collector.Shutdown
import Metering.Proofs.Collector.Tracking
import Metering.Proofs.Instrument.Run

/-!
# Shutting an instrument down

Until its first shutdown all collectors of an instrument are running (`Instrument.running_run`), so the
last reports are what collections would have been (`Readers.shutdown_eq_map_collect`). From then on all
of them are closed, and every command is met with silence (`Instrument.run_of_closed`). What is said of
all collectors holds of an instrument without any as well.
-/

namespace Metering

variable {T : Type} [Quantity T]

/-! ## All collectors -/

namespace Readers

/-- Something is true of every collector. -/
def All (P : (k : Kind) → Collector T k → Prop) : Readers T → Prop
  | .idle _ => True
  | .collecting k collectors => ∀ c ∈ collectors, P k c

/-- No collector was shut down. -/
abbrev Running (readers : Readers T) : Prop := readers.All fun _ c => c.shutDown = false

/-- All collectors were shut down. -/
abbrev Closed (readers : Readers T) : Prop := readers.All fun _ c => c.Closed

variable {readers : Readers T} {P Q : (k : Kind) → Collector T k → Prop}

/-- A recording goes to every collector. -/
theorem All.record (h : readers.All P) {r : Recording T}
    (hstep : ∀ k (c : Collector T k), P k c → P k (c.record r)) : (readers.record r).All P := by
  cases readers with
  | idle count => trivial
  | collecting k collectors =>
    intro c hc
    obtain ⟨old, hold, rfl⟩ := List.mem_map.1 hc
    exact hstep k old (h old hold)

/-- A collection is one of the reader's own collector, and the others stay as they are. -/
theorem All.collect (h : readers.All P) (reader : Nat) {start time : Time}
    (hstep : ∀ k (c : Collector T k), P k c → P k (c.collect start time).2) :
    (readers.collect reader start time).2.All P := by
  cases readers with
  | idle count => trivial
  | collecting k collectors =>
    rw [Readers.collect.eq_def]
    dsimp only
    split
    · exact h
    · rename_i c hc
      intro other hother
      rcases List.mem_or_eq_of_mem_set hother with hother | rfl
      · exact h other hother
      · exact hstep k c (h c (List.mem_of_getElem? hc))

/-- A shutdown shuts every collector down. -/
theorem All.shutdown (h : readers.All P) {start time : Time}
    (hstep : ∀ k (c : Collector T k), P k c → Q k (c.shutdown start time).2) :
    (readers.shutdown start time).2.All Q := by
  cases readers with
  | idle count => trivial
  | collecting k collectors =>
    intro c hc
    obtain ⟨last, hlast, rfl⟩ := List.mem_map.1 hc
    obtain ⟨old, hold, rfl⟩ := List.mem_map.1 hlast
    exact hstep k old (h old hold)

/-! ## How many readers there are -/

/-- Recording adds no reader and takes none away. -/
theorem count_record (readers : Readers T) (r : Recording T) :
    (readers.record r).count = readers.count := by
  cases readers with
  | idle count => rfl
  | collecting k collectors => exact List.length_map _

theorem count_collect (readers : Readers T) (reader : Nat) (start time : Time) :
    (readers.collect reader start time).2.count = readers.count := by
  cases readers with
  | idle count => rfl
  | collecting k collectors =>
    rw [Readers.collect.eq_def]
    dsimp only
    split
    · rfl
    · exact List.length_set

theorem count_shutdown (readers : Readers T) (start time : Time) :
    (readers.shutdown start time).2.count = readers.count := by
  cases readers with
  | idle count => rfl
  | collecting k collectors => exact (List.length_map _).trans (List.length_map _)

/-! ## The last reports -/

/-- The last report for each reader is what it would have collected. -/
theorem shutdown_eq_map_collect (h : readers.Running) (start time : Time) :
    (readers.shutdown start time).1 =
      (List.range readers.count).map fun reader => (readers.collect reader start time).1 := by
  cases readers with
  | idle count =>
    have hmap : (List.range count).map (fun _ => (none : Option (Report T))) =
        List.replicate count none := by
      rw [List.map_const', List.length_range]
    exact hmap.symm
  | collecting k collectors =>
    refine List.ext_getElem? fun reader => ?_
    show ((collectors.map (·.shutdown start time)).map (·.1.map (Sigma.mk k)))[reader]? =
      ((List.range collectors.length).map _)[reader]?
    rw [List.getElem?_map, List.getElem?_map, List.getElem?_map]
    -- reader by reader: beyond the last one there is nothing on either side
    cases hc : collectors[reader]? with
    | none =>
      have hrange : (List.range collectors.length)[reader]? = none := by simpa using hc
      rw [hrange]
      rfl
    | some c =>
      obtain ⟨hlt, -⟩ := List.getElem?_eq_some_iff.1 hc
      have hlast := Collector.shutdown_fst (h c (List.mem_of_getElem? hc)) start time
      rw [List.getElem?_range hlt, Option.map_some, Option.map_some, Option.map_some,
        Instrument.readers_collect hc, hlast]

/-- There is nothing to collect after a shutdown. -/
theorem collect_of_closed (h : readers.Closed) (reader : Nat) (start time : Time) :
    (readers.collect reader start time).1 = none := by
  cases readers with
  | idle count => rfl
  | collecting k collectors =>
    cases hc : collectors[reader]? with
    | none => rw [Readers.collect, hc]
    | some c =>
      rw [Instrument.readers_collect hc, ((h c (List.mem_of_getElem? hc)).collect start time).1]
      rfl

/-- There are no more last reports after a shutdown. -/
theorem shutdown_of_closed (h : readers.Closed) (start time : Time) :
    (readers.shutdown start time).1 = List.replicate readers.count none := by
  cases readers with
  | idle count => rfl
  | collecting k collectors =>
    refine List.eq_replicate_iff.2 ⟨(List.length_map _).trans (List.length_map _), fun m hm => ?_⟩
    obtain ⟨last, hlast, rfl⟩ := List.mem_map.1 hm
    obtain ⟨c, hc, rfl⟩ := List.mem_map.1 hlast
    have hshutdown : c.shutdown start time = (none, c) := by
      rw [Collector.shutdown, (h c hc).shutDown]
      rfl
    rw [hshutdown]
    rfl

end Readers

/-! ## Runs -/

namespace Instrument

variable {i : Instrument T}

omit [Quantity T] in
/-- What a command is met with if there is nothing to report. -/
def Command.silence (readers : Nat) : Command T → Reply T
  | .record _ => .done
  | .collect _ _ _ => .reported none
  | .shutdown _ _ => .flushed (List.replicate readers none)

/-- No command adds a reader or takes one away. -/
theorem count_perform (i : Instrument T) (command : Command T) :
    (i.perform command).2.readers.count = i.readers.count := by
  cases command with
  | record r =>
    show (i.record r).readers.count = i.readers.count
    unfold record
    split
    · exact i.readers.count_record r
    · rfl
  | collect reader start time => exact i.readers.count_collect reader start time
  | shutdown start time => exact i.readers.count_shutdown start time

theorem count_run (i : Instrument T) (commands : List (Command T)) :
    (i.run commands).2.readers.count = i.readers.count := by
  induction commands generalizing i with
  | nil => rfl
  | cons command rest ih => exact (ih _).trans (i.count_perform command)

omit [Quantity T] in
/-- A new instrument has a reader for each configuration, and its collectors are running. -/
theorem readers_new {stream : Stream} {aggregation : Aggregation} {filter : ExemplarFilter}
    {parallelism : Nat} {configs : List ReaderConfig}
    (hnew : new stream aggregation filter parallelism configs = .ok i) :
    i.readers.count = configs.length ∧ i.readers.Running := by
  rcases new_cases hnew with ⟨-, rfl⟩ | ⟨k, sampling, -, -, -, rfl⟩
  · exact ⟨rfl, trivial⟩
  · refine ⟨List.length_map _, fun c hc => ?_⟩
    obtain ⟨config, -, rfl⟩ := List.mem_map.1 hc
    rfl

/-- Until a shutdown all collectors are running. -/
theorem running_run (h : i.readers.Running) {commands : List (Command T)}
    (hshutdown : ∀ start time, .shutdown start time ∉ commands) :
    (i.run commands).2.readers.Running := by
  induction commands generalizing i with
  | nil => exact h
  | cons command rest ih =>
    refine ih ?_ fun start time hmem => hshutdown start time (List.mem_cons_of_mem _ hmem)
    -- recording and collecting leave every collector running, and the rest shuts down nothing
    cases command with
    | record r =>
      show (i.record r).readers.Running
      unfold record
      split
      · exact h.record fun k c hc => (c.shutDown_record r).trans hc
      · exact h
    | collect reader start time =>
      exact h.collect reader fun k c hc =>
        (congrArg Collector.Frame.shutDown (c.frame_collect start time)).trans hc
    | shutdown start time => exact absurd List.mem_cons_self (hshutdown start time)

/-- Closed collectors stay closed, whatever comes. -/
theorem closed_perform (h : i.readers.Closed) (command : Command T) :
    (i.perform command).2.readers.Closed := by
  cases command with
  | record r =>
    show (i.record r).readers.Closed
    unfold record
    split
    · have hhold : ¬ (Metering.Command.record r).IsHold := id
      exact h.record fun k c hc => (hc.perform hhold).2
    · exact h
  | collect reader start time =>
    exact h.collect reader fun k c hc => (hc.collect start time).2
  | shutdown start time =>
    have hhold : ¬ (Metering.Command.shutdown start time : Metering.Command T).IsHold := id
    exact h.shutdown fun k c hc => (hc.perform hhold).2

/-- After a shutdown every command is met with silence. -/
theorem run_of_closed (h : i.readers.Closed) (commands : List (Command T)) :
    (i.run commands).1 = commands.map (Command.silence i.readers.count) := by
  induction commands generalizing i with
  | nil => rfl
  | cons command rest ih =>
    have hreply : (i.perform command).1 = command.silence i.readers.count := by
      cases command with
      | record r => rfl
      | collect reader start time =>
        exact congrArg Reply.reported (Readers.collect_of_closed h reader start time)
      | shutdown start time => exact congrArg Reply.flushed (Readers.shutdown_of_closed h start time)
    have hrest := ih (closed_perform h command)
    rw [count_perform] at hrest
    exact congrArg₂ List.cons hreply hrest

end Instrument

end Metering
