import Metering.Collector.Run
import Metering.Instrument
import Mathlib.Data.List.Basic

/-!
# Runs of an instrument

What one reader gets out of a run of an instrument (`Instrument.results`), and what it gets to hear
of the commands (`Instrument.Command.heardBy`). `Instrument.Serves` is the simulation between the
instrument and one collector of its own: the instrument holds that collector at the reader's place,
and a command changes it as the reader's share of the command does.
-/

namespace Metering

variable {T : Type} [Quantity T]

namespace Instrument

/-- One use of an instrument. -/
inductive Command (T : Type) where
  | record (r : Recording T)
  | collect (reader : Nat) (start time : Time)
  | shutdown (start time : Time)

/-- The answer to a command. -/
inductive Reply (T : Type) where
  | done
  | reported (m : Option (Report T))
  /-- The last report of every reader, in the order of the readers. -/
  | flushed (last : List (Option (Report T)))

/-- Carry out a command. -/
def perform (i : Instrument T) : Command T → Reply T × Instrument T
  | .record r => (.done, i.record r)
  | .collect reader start time => let (m, i) := i.collect reader start time; (.reported m, i)
  | .shutdown start time => let (last, i) := i.shutdown start time; (.flushed last, i)

/-- Carry out commands one after another. -/
def run (i : Instrument T) : List (Command T) → List (Reply T) × Instrument T
  | [] => ([], i)
  | command :: rest =>
    let (reply, i) := i.perform command
    let (replies, i) := i.run rest
    (reply :: replies, i)

omit [Quantity T] in
/-- What a reader learns from the answer to a command: the result of its own collections, and its
place among the last reports. -/
def Reply.answer? (reader : Nat) : Command T → Reply T → Option (Option (Report T))
  | .collect other _ _, .reported m => if other = reader then some m else none
  | .shutdown _ _, .flushed last => some last[reader]?.join
  | _, _ => none

/-- The results that a reader obtains in a run, one after another. -/
def results (i : Instrument T) (reader : Nat) (commands : List (Command T)) :
    List (Option (Report T)) :=
  (commands.zip (i.run commands).1).filterMap fun e => e.2.answer? reader e.1

/-- What a reader gets to hear of a command: the measurements that are numbers and, for a monotonic
sum, not negative; its own collections; and the shutdown. -/
def Command.heardBy (aggregation : Aggregation) (reader : Nat) :
    Command T → Option (Metering.Command T)
  | .record r =>
    if Quantity.isNaN r.value = true ∨ aggregation = .sum true ∧ Quantity.isNegative r.value = true
    then none
    else some (.record r)
  | .collect other start time => if other = reader then some (.collect start time) else none
  | .shutdown start time => some (.shutdown start time)

end Instrument

/-- The report in an answer, be it that of a collection or of a shutdown. -/
def Reply.answer? {k : Kind} : Reply T k → Option (Option (Report T))
  | .reported m => some (m.map (⟨k, ·⟩))
  | .done | .holding _ | .drained _ => none

/-- The results of the collections of a collector on its own, and of its shutdowns. -/
def Collector.results {k : Kind} (c : Collector T k) (commands : List (Metering.Command T)) :
    List (Option (Report T)) :=
  (c.run commands).1.filterMap Reply.answer?

/-- Only the drop aggregation has no kind. -/
theorem Aggregation.kind?_eq_none {a : Aggregation} : a.kind? = .ok none ↔ a = .drop := by
  cases a with
  | histogram values recordsExtremes =>
    rw [kind?]
    split <;> simp
  | drop => simp [kind?]
  | sum monotonic => simp [kind?]
  | lastValue => simp [kind?]
  | minMaxSumCount => simp [kind?]

/-- An aggregation takes what its readers are to hear of. -/
theorem Aggregation.accepts_iff (a : Aggregation) (v : T) :
    a.accepts v = true ↔
      ¬ (Quantity.isNaN v = true ∨ a = .sum true ∧ Quantity.isNegative v = true) := by
  have hmonotonic : a.isMonotonic = true ↔ a = .sum true := by
    cases a <;> simp [isMonotonic]
  rw [accepts, ← hmonotonic]
  cases Quantity.isNaN v <;> cases Quantity.isNegative v <;> cases a.isMonotonic <;> simp

namespace Instrument

variable {k : Kind} {i : Instrument T} {reader : Nat} {c : Collector T k}

/-- No command changes what is aggregated. -/
theorem aggregation_perform (i : Instrument T) (command : Command T) :
    (i.perform command).2.aggregation = i.aggregation := by
  cases command with
  | record r =>
    show (i.record r).aggregation = i.aggregation
    unfold record
    split <;> rfl
  | collect other start time => rfl
  | shutdown start time => rfl

/-- The results of a run begin with the answer to its first command, if this has one. -/
theorem results_cons (i : Instrument T) (reader : Nat) (command : Command T)
    (rest : List (Command T)) :
    i.results reader (command :: rest) =
      ((i.perform command).1.answer? reader command).toList ++
        (i.perform command).2.results reader rest := by
  rw [results, run, List.zip_cons_cons, List.filterMap_cons]
  cases (i.perform command).1.answer? reader command <;> rfl

/-! ## New instruments -/

omit [Quantity T] in
/-- A new instrument keeps nothing, or has a new collector for every configuration. -/
theorem new_cases {stream : Stream} {aggregation : Aggregation} {filter : ExemplarFilter}
    {parallelism : Nat} {configs : List ReaderConfig}
    (hnew : new stream aggregation filter parallelism configs = .ok i) :
    (aggregation = .drop ∧ i = ⟨stream, aggregation, .idle configs.length⟩) ∨
      ∃ k sampling, aggregation ≠ .drop ∧ aggregation.kind? = .ok (some k) ∧
        Aggregation.sampling filter (max parallelism 1) k = .ok sampling ∧
        i = ⟨stream, aggregation, .collecting k (configs.map (Collector.new sampling stream))⟩ := by
  unfold new at hnew
  by_cases hconfigs : configs.isEmpty = true
  · rw [if_pos hconfigs] at hnew
    cases hnew
  · rw [if_neg hconfigs] at hnew
    -- the aggregation has no kind, or none is needed, or the sampling of the kind may fail
    cases hkind : aggregation.kind? with
    | error fault =>
      rw [hkind] at hnew
      cases hnew
    | ok kind =>
      rw [hkind] at hnew
      cases kind with
      | none =>
        cases hnew
        exact .inl ⟨Aggregation.kind?_eq_none.1 hkind, rfl⟩
      | some k =>
        have hdrop : aggregation ≠ .drop := by
          rintro rfl
          cases hkind
        have hbind : (Aggregation.sampling filter (max parallelism 1) k >>= fun sampling =>
            pure ⟨stream, aggregation, .collecting k (configs.map (Collector.new sampling stream))⟩) =
              Except.ok i := hnew
        cases hsampling : (Aggregation.sampling filter (max parallelism 1) k :
            Except ConfigError (SamplingPlan T)) with
        | error fault =>
          rw [hsampling] at hbind
          cases hbind
        | ok sampling =>
          rw [hsampling] at hbind
          cases hbind
          exact .inr ⟨k, sampling, hdrop, rfl, hsampling, rfl⟩

/-! ## One collector at the place of a reader -/

/-- The instrument holds a collector for a reader. -/
def Serves (i : Instrument T) (reader : Nat) (c : Collector T k) : Prop :=
  ∃ collectors, i.readers = .collecting k collectors ∧ collectors[reader]? = some c

omit [Quantity T] in
/-- A new instrument holds a new collector for each of its readers. -/
theorem serves_new (stream : Stream) (aggregation : Aggregation) (sampling : SamplingPlan T)
    {configs : List ReaderConfig} {config : ReaderConfig} (hconfig : configs[reader]? = some config) :
    Serves ⟨stream, aggregation, .collecting k (configs.map (Collector.new sampling stream))⟩ reader
      (Collector.new sampling stream config : Collector T k) := by
  refine ⟨_, rfl, ?_⟩
  rw [List.getElem?_map, hconfig, Option.map_some]

/-- A command that the reader does not hear of leaves its collector as it is. -/
theorem Serves.perform_of_unheard (h : i.Serves reader c) {command : Command T}
    (hheard : command.heardBy i.aggregation reader = none) :
    (i.perform command).2.Serves reader c ∧
      (i.perform command).1.answer? reader command = none := by
  obtain ⟨collectors, hreaders, hc⟩ := h
  -- a rejected recording, or a collection of another reader; a shutdown is heard by all
  cases command with
  | record r =>
    have hreject : ¬ i.aggregation.accepts r.value = true := by
      intro haccepts
      rw [Command.heardBy, if_neg ((Aggregation.accepts_iff _ _).1 haccepts)] at hheard
      cases hheard
    refine ⟨?_, rfl⟩
    show (i.record r).Serves reader c
    rw [record, if_neg hreject]
    exact ⟨collectors, hreaders, hc⟩
  | collect other start time =>
    have hne : other ≠ reader := by
      rintro rfl
      rw [Command.heardBy, if_pos rfl] at hheard
      cases hheard
    refine ⟨?_, if_neg hne⟩
    show ∃ cs, (i.readers.collect other start time).2 = _ ∧ _
    rw [hreaders, Readers.collect]
    cases hother : collectors[other]? with
    | none => exact ⟨collectors, rfl, hc⟩
    | some o => exact ⟨_, rfl, (List.getElem?_set_ne hne).trans hc⟩
  | shutdown start time => cases hheard

/-- The collection of a reader is that of its collector. -/
theorem readers_collect {collectors : List (Collector T k)}
    (hc : collectors[reader]? = some c) (start time : Time) :
    (Readers.collecting k collectors).collect reader start time =
      ((c.collect start time).1.map (⟨k, ·⟩),
        .collecting k (collectors.set reader (c.collect start time).2)) := by
  rw [Readers.collect, hc]

/-- A command that the reader hears of changes its collector, and answers, as the reader's share of
it does. -/
theorem Serves.perform_of_heard (h : i.Serves reader c) {command : Command T}
    {heard : Metering.Command T} (hheard : command.heardBy i.aggregation reader = some heard) :
    (i.perform command).2.Serves reader (c.perform heard).2 ∧
      (i.perform command).1.answer? reader command = (c.perform heard).1.answer? := by
  obtain ⟨collectors, hreaders, hc⟩ := h
  -- what is heard is what the reader's own collector is told to do
  cases command with
  | record r =>
    rw [Command.heardBy] at hheard
    split at hheard
    · cases hheard
    · rename_i hvalid
      cases hheard
      refine ⟨?_, ?_⟩
      · show (i.record r).Serves reader (c.record r)
        rw [record, if_pos ((Aggregation.accepts_iff _ _).2 hvalid)]
        refine ⟨collectors.map (·.record r), ?_, ?_⟩
        · rw [hreaders, Readers.record]
        · rw [List.getElem?_map, hc, Option.map_some]
      · show (none : Option (Option (Report T))) = none
        rfl
  | collect other start time =>
    rw [Command.heardBy] at hheard
    split at hheard
    · rename_i hreader
      subst hreader
      cases hheard
      have hcollect := readers_collect hc start time
      rw [← hreaders] at hcollect
      refine ⟨?_, ?_⟩
      · show ∃ cs, (i.readers.collect other start time).2 = .collecting k cs ∧
          cs[other]? = some (c.collect start time).2
        rw [hcollect]
        obtain ⟨hlt, -⟩ := List.getElem?_eq_some_iff.1 hc
        exact ⟨_, rfl, List.getElem?_set_self hlt⟩
      · show (if other = other then some (i.readers.collect other start time).1 else none) = _
        rw [if_pos rfl, hcollect]
        rfl
    · cases hheard
  | shutdown start time =>
    cases hheard
    have hshutdown : i.readers.shutdown start time =
        ((collectors.map (·.shutdown start time)).map (·.1.map (⟨k, ·⟩)),
          .collecting k ((collectors.map (·.shutdown start time)).map (·.2))) := by
      rw [hreaders]
      rfl
    refine ⟨?_, ?_⟩
    · show ∃ cs, (i.readers.shutdown start time).2 = .collecting k cs ∧
        cs[reader]? = some (c.shutdown start time).2
      rw [hshutdown]
      refine ⟨_, rfl, ?_⟩
      rw [List.getElem?_map, List.getElem?_map, hc]
      rfl
    · show some (i.readers.shutdown start time).1[reader]?.join = _
      rw [hshutdown, List.getElem?_map, List.getElem?_map, hc]
      rfl

/-- In every run, the results of a reader are those of its collector on its own. -/
theorem Serves.results_eq (h : i.Serves reader c) (commands : List (Command T)) :
    i.results reader commands =
      c.results (commands.filterMap (Command.heardBy i.aggregation reader)) := by
  induction commands generalizing i c with
  | nil => rfl
  | cons command rest ih =>
    rw [results_cons]
    -- the collector moves on with the commands that the reader hears of, and with no others
    cases hheard : command.heardBy i.aggregation reader with
    | none =>
      obtain ⟨hserves, hanswer⟩ := h.perform_of_unheard hheard
      rw [hanswer, ih hserves, aggregation_perform, List.filterMap_cons_none hheard]
      rfl
    | some heard =>
      obtain ⟨hserves, hanswer⟩ := h.perform_of_heard hheard
      rw [hanswer, ih hserves, aggregation_perform, List.filterMap_cons_some hheard]
      rw [Collector.results, Collector.results, Collector.run, List.filterMap_cons]
      cases (c.perform heard).1.answer? <;> rfl

/-! ## No collector at the place of a reader -/

end Instrument

/-- There is no collector for a reader. -/
def Readers.Lacks (reader : Nat) : Readers T → Prop
  | .idle _ => True
  | .collecting _ collectors => collectors.length ≤ reader

namespace Readers.Lacks

variable {readers : Readers T} {reader : Nat}

/-- A recording brings no reader in. -/
theorem record (h : readers.Lacks reader) (r : Recording T) : (readers.record r).Lacks reader := by
  cases readers with
  | idle count => exact h
  | collecting k collectors => exact Nat.le_trans (Nat.le_of_eq (List.length_map _)) h

theorem collect (h : readers.Lacks reader) (other : Nat) (start time : Time) :
    (readers.collect other start time).2.Lacks reader := by
  cases readers with
  | idle count => exact h
  | collecting k collectors =>
    rw [Readers.collect.eq_def]
    dsimp only
    split
    · exact h
    · exact Nat.le_trans (Nat.le_of_eq List.length_set) h

/-- A reader that is not there gets nothing from a collection. -/
theorem collect_self (h : readers.Lacks reader) (start time : Time) :
    (readers.collect reader start time).1 = none := by
  cases readers with
  | idle count => rfl
  | collecting k collectors =>
    rw [Readers.collect.eq_def]
    dsimp only
    rw [List.getElem?_eq_none h]

/-- A shutdown neither brings a reader in nor gives it anything. -/
theorem shutdown (h : readers.Lacks reader) (start time : Time) :
    (readers.shutdown start time).2.Lacks reader ∧
      (readers.shutdown start time).1[reader]?.join = none := by
  cases readers with
  | idle count =>
    refine ⟨h, ?_⟩
    show (List.replicate count none)[reader]?.join = none
    rw [List.getElem?_replicate]
    split <;> rfl
  | collecting k collectors =>
    have hlength : (collectors.map (·.shutdown start time)).length ≤ reader :=
      Nat.le_trans (Nat.le_of_eq (List.length_map _)) h
    refine ⟨Nat.le_trans (Nat.le_of_eq (List.length_map _)) hlength, ?_⟩
    show ((collectors.map (·.shutdown start time)).map (·.1.map (Sigma.mk k)))[reader]?.join = none
    rw [List.getElem?_map, List.getElem?_eq_none hlength]
    rfl

end Readers.Lacks

namespace Instrument

variable {i : Instrument T} {reader : Nat}

/-- Whatever is done, a reader without a collector learns nothing and gets no collector. -/
theorem perform_of_lacks (h : i.readers.Lacks reader) (command : Command T) :
    (i.perform command).2.readers.Lacks reader ∧
      ∀ m, (i.perform command).1.answer? reader command = some m → m = none := by
  cases command with
  | record r =>
    refine ⟨?_, fun m hm => ?_⟩
    · show (i.record r).readers.Lacks reader
      unfold record
      split
      · exact h.record r
      · exact h
    · change none = some m at hm
      cases hm
  | collect other start time =>
    refine ⟨h.collect other start time, fun m hm => ?_⟩
    change (if other = reader then some (i.readers.collect other start time).1 else none) =
      some m at hm
    split at hm
    · rename_i hother
      subst hother
      rw [h.collect_self] at hm
      cases hm
      rfl
    · cases hm
  | shutdown start time =>
    obtain ⟨hlacks, hlast⟩ := h.shutdown start time
    refine ⟨hlacks, fun m hm => ?_⟩
    change some (i.readers.shutdown start time).1[reader]?.join = some m at hm
    rw [hlast] at hm
    cases hm
    rfl

/-- A reader that is not there gets nothing in a whole run. -/
theorem results_of_lacks (h : i.readers.Lacks reader) (commands : List (Command T)) :
    ∀ m ∈ i.results reader commands, m = none := by
  induction commands generalizing i with
  | nil => exact fun m hm => absurd hm List.not_mem_nil
  | cons command rest ih =>
    obtain ⟨hlacks, hanswer⟩ := perform_of_lacks h command
    intro m hm
    rw [results_cons] at hm
    rcases List.mem_append.1 hm with hm | hm
    · exact hanswer m (Option.mem_toList.1 hm)
    · exact ih hlacks m hm

end Instrument

end Metering
