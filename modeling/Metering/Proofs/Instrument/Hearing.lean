import Metering.Proofs.Collector.Retention
import Metering.Proofs.Collector.Roster
import Metering.Proofs.Instrument.Run

/-!
# What readers hear

Readers of an instrument hear of the same recordings, and each one of its own collections
(`Instrument.recordings_heard`). Without a shutdown, that is all they hear of.
-/

namespace Metering.Instrument

variable {T : Type} [Quantity T]

/-- The recording that a command makes. -/
def Command.recording? : Command T → Option (Recording T)
  | .record r => some r
  | .collect _ _ _ | .shutdown _ _ => none

omit [Quantity T] in
/-- A recording that is made is one of the recordings. -/
theorem mem_recordings {commands : List (Command T)} {r : Recording T}
    (hr : .record r ∈ commands) : r ∈ commands.filterMap Command.recording? :=
  List.mem_filterMap.2 ⟨_, hr, rfl⟩

/-- A reader has collected, and nothing was recorded since. -/
def Settled (reader : Nat) (commands : List (Command T)) : Prop :=
  ∃ before start time after, commands = before ++ .collect reader start time :: after ∧
    ∀ r, .record r ∉ after

/-- Two readers collect, one right after the other. -/
def BackToBack (reader reader' : Nat) (commands : List (Command T)) : Prop :=
  ∃ start time start' time',
    commands = [.collect reader start time, .collect reader' start' time'] ∨
      commands = [.collect reader' start' time', .collect reader start time]

/-- Every reader hears of a recording that is accepted. -/
theorem heardBy_record_of_accepts {aggregation : Aggregation} (reader : Nat) {r : Recording T}
    (h : aggregation.accepts r.value = true) :
    Command.heardBy aggregation reader (.record r) = some (.record r) :=
  if_neg ((aggregation.accepts_iff r.value).1 h)

/-- No reader hears of a recording that is rejected. -/
theorem heardBy_record_of_rejects {aggregation : Aggregation} (reader : Nat) {r : Recording T}
    (h : ¬ aggregation.accepts r.value = true) :
    Command.heardBy aggregation reader (.record r) = none :=
  if_pos ((aggregation.accepts_iff r.value).not_left.1 h)

/-- A reader hears of its own collections. -/
theorem heardBy_collect (aggregation : Aggregation) (reader : Nat) (start time : Time) :
    Command.heardBy aggregation reader (.collect reader start time : Command T) =
      some (.collect start time) :=
  if_pos rfl

/-- Readers hear of recordings, if the aggregation takes them. -/
theorem heard_recordings (aggregation : Aggregation) (reader : Nat) (rs : List (Recording T)) :
    (rs.map Command.record).filterMap (Command.heardBy aggregation reader) =
      (rs.filter fun r => aggregation.accepts r.value).map .record := by
  induction rs with
  | nil => rfl
  | cons r rest ih =>
    rw [List.map_cons]
    by_cases haccepts : aggregation.accepts r.value = true
    · rw [List.filterMap_cons_some (heardBy_record_of_accepts reader haccepts), ih,
        List.filter_cons_of_pos (by exact haccepts), List.map_cons]
    · rw [List.filterMap_cons_none (heardBy_record_of_rejects reader haccepts), ih,
        List.filter_cons_of_neg (by exact haccepts)]

/-- All readers hear of the same recordings. -/
theorem recordings_heard (aggregation : Aggregation) (reader : Nat) (commands : List (Command T)) :
    (commands.filterMap (Command.heardBy aggregation reader)).filterMap
        Metering.Command.recording? =
      (commands.filterMap Command.recording?).filter fun r => aggregation.accepts r.value := by
  rw [List.filterMap_filterMap, List.filter_filterMap]
  refine List.filterMap_congr fun command _ => ?_
  -- only recordings count, and each of them is heard exactly if it is accepted
  cases command with
  | record r =>
    show (Command.heardBy aggregation reader (.record r)).bind Metering.Command.recording? =
      (some r).filter fun r => aggregation.accepts r.value
    by_cases haccepts : aggregation.accepts r.value = true
    · rw [heardBy_record_of_accepts reader haccepts]
      exact (if_pos haccepts).symm
    · rw [heardBy_record_of_rejects reader haccepts]
      exact (if_neg haccepts).symm
  | collect other start time =>
    show (Command.heardBy aggregation reader (.collect other start time)).bind
      Metering.Command.recording? = none
    rw [Command.heardBy]
    split <;> rfl
  | shutdown start time => rfl

/-- Without a shutdown, readers hear of recordings and collections only. -/
theorem plain_heard (aggregation : Aggregation) (reader : Nat) {commands : List (Command T)}
    (hshutdown : ∀ start time, .shutdown start time ∉ commands) :
    ∀ heard ∈ commands.filterMap (Command.heardBy aggregation reader), heard.IsPlain := by
  intro heard hheard
  obtain ⟨command, hcommand, heq⟩ := List.mem_filterMap.1 hheard
  cases command with
  | record r =>
    rw [Command.heardBy] at heq
    split at heq <;> cases heq
    trivial
  | collect other start time =>
    rw [Command.heardBy] at heq
    split at heq <;> cases heq
    trivial
  | shutdown start time => exact absurd hcommand (hshutdown start time)

/-- What a settled reader hears of ends with a collection. -/
theorem Settled.heard {reader : Nat} {commands : List (Command T)} (h : Settled reader commands)
    (aggregation : Aggregation) (hshutdown : ∀ start time, .shutdown start time ∉ commands) :
    ∃ init start time, commands.filterMap (Command.heardBy aggregation reader) =
      init ++ [.collect start time] := by
  obtain ⟨before, start, time, after, rfl, hafter⟩ := h
  rw [List.filterMap_append, List.filterMap_cons_some (heardBy_collect aggregation reader start time)]
  -- whatever the reader heard of since then is further collections
  rcases List.eq_nil_or_concat (after.filterMap (Command.heardBy aggregation reader)) with
    hnil | ⟨init, last, hconcat⟩
  · rw [hnil]
    exact ⟨_, start, time, rfl⟩
  · rw [List.concat_eq_append] at hconcat
    have hlast : last ∈ after.filterMap (Command.heardBy aggregation reader) := by
      rw [hconcat]
      exact List.mem_append_right _ List.mem_cons_self
    obtain ⟨command, hcommand, heq⟩ := List.mem_filterMap.1 hlast
    cases command with
    | record r => exact absurd hcommand (hafter r)
    | collect other start' time' =>
      rw [Command.heardBy] at heq
      split at heq <;> cases heq
      refine ⟨before.filterMap (Command.heardBy aggregation reader) ++
        .collect start time :: init, start', time', ?_⟩
      rw [hconcat, List.append_assoc]
      rfl
    | shutdown start' time' =>
      exact absurd (List.mem_append_right _ (List.mem_cons_of_mem _ hcommand))
        (hshutdown start' time')

/-- Of two collections, each of two readers hears of its own. -/
theorem BackToBack.heard {reader reader' : Nat} {commands : List (Command T)}
    (h : BackToBack reader reader' commands) (hne : reader ≠ reader') (aggregation : Aggregation) :
    ∃ start time, commands.filterMap (Command.heardBy aggregation reader) =
      [.collect start time] := by
  obtain ⟨start, time, start', time', hcommands⟩ := h
  refine ⟨start, time, ?_⟩
  have hother : Command.heardBy aggregation reader (.collect reader' start' time' : Command T) =
      none :=
    if_neg hne.symm
  rcases hcommands with rfl | rfl
  · rw [List.filterMap_cons_some (heardBy_collect _ _ _ _), List.filterMap_cons_none hother]
    rfl
  · rw [List.filterMap_cons_none hother, List.filterMap_cons_some (heardBy_collect _ _ _ _)]
    rfl

/-- What a reader hears of a collection, recordings, and another collection. -/
theorem heard_round {aggregation : Aggregation} {reader : Nat} {before closing : List (Command T)}
    {init : List (Metering.Command T)} {start time start' time' : Time}
    (hbefore : before.filterMap (Command.heardBy aggregation reader) = init ++ [.collect start time])
    (hclosing : closing.filterMap (Command.heardBy aggregation reader) = [.collect start' time'])
    (rs : List (Recording T)) :
    (before ++ rs.map Command.record ++ closing).filterMap (Command.heardBy aggregation reader) =
      init ++ .collect start time :: (rs.filter fun r => aggregation.accepts r.value).map .record ++
        [.collect start' time'] := by
  rw [List.filterMap_append, List.filterMap_append, hbefore, hclosing, heard_recordings,
    List.append_assoc init]
  rfl

omit [Quantity T] in
/-- Two readers that collect one right after the other do so in either order. -/
theorem BackToBack.symm {reader reader' : Nat} {commands : List (Command T)}
    (h : BackToBack reader reader' commands) : BackToBack reader' reader commands := by
  obtain ⟨start, time, start', time', hcommands⟩ := h
  exact ⟨start', time', start, time, hcommands.symm⟩

/-- Readers look only for sets that equal themselves if these are all that is recorded. -/
theorem reflexive_heard (aggregation : Aggregation) (reader : Nat) {filter : KeyFilter}
    {commands : List (Command T)}
    (hreflexive : ∀ r, .record r ∈ commands →
      (filter.apply r.attributes == filter.apply r.attributes) = true) :
    ∀ heard ∈ commands.filterMap (Command.heardBy aggregation reader),
      heard.IsReflexive filter := by
  intro heard hheard
  obtain ⟨command, hcommand, heq⟩ := List.mem_filterMap.1 hheard
  cases command with
  | record r =>
    rw [Command.heardBy] at heq
    split at heq <;> cases heq
    exact hreflexive r hcommand
  | collect other start time =>
    rw [Command.heardBy] at heq
    split at heq <;> cases heq
    trivial
  | shutdown start time =>
    cases heq
    trivial

end Metering.Instrument
