import Metering.Proofs.Instrument.Run

/-!
# Readers on their own

Readers of one instrument do not influence each other: what one of them obtains is what a collector
of its own would report, given only the measurements that are valid and what this reader asks for.
-/

namespace Metering.Instrument

variable {T : Type} [Quantity T]

/-- **Independent readers.** In every run of an instrument, each reader obtains the same results, one
after another, as a collector with the reader's configuration that hears only of the valid
measurements, of the reader's own collections, and of the shutdown. If the instrument keeps nothing,
or if there is no such reader, then all results are empty. -/
theorem readers_are_independent (stream : Stream) (aggregation : Aggregation)
    (filter : ExemplarFilter) (parallelism : Nat) (configs : List ReaderConfig) {i : Instrument T}
    (hnew : new stream aggregation filter parallelism configs = .ok i) (commands : List (Command T))
    (reader : Nat) :
    (∀ config, configs[reader]? = some config → aggregation ≠ .drop →
      ∃ k sampling, aggregation.kind? = .ok (some k) ∧
        Aggregation.sampling filter (max parallelism 1) k = .ok sampling ∧
        i.results reader commands =
          (Collector.new sampling stream config : Collector T k).results
            (commands.filterMap (Command.heardBy aggregation reader))) ∧
      (aggregation = .drop ∨ configs.length ≤ reader →
        ∀ m ∈ i.results reader commands, m = none) := by
  rcases new_cases hnew with ⟨hdrop, rfl⟩ | ⟨k, sampling, hdrop, hkind, hsampling, rfl⟩
  · refine ⟨fun _ _ hne => absurd hdrop hne, fun _ => ?_⟩
    have hlacks : (Readers.idle configs.length : Readers T).Lacks reader := trivial
    exact results_of_lacks (i := ⟨stream, aggregation, _⟩) hlacks commands
  · refine ⟨fun config hconfig _ => ⟨k, sampling, hkind, hsampling, ?_⟩, fun hnone => ?_⟩
    · exact (serves_new stream aggregation sampling hconfig).results_eq commands
    · rcases hnone with hdrop' | hlength
      · exact absurd hdrop' hdrop
      · refine results_of_lacks ?_ commands
        show (configs.map (Collector.new sampling stream)).length ≤ reader
        rw [List.length_map]
        exact hlength

/-- Two readers of a monotonic sum, one of which collects in between; a negative measurement is not
taken, and a third reader does not exist. -/
def interleavedCommands : List (Command Int64) :=
  [.record { value := 5, attributes := [⟨"a", .int 1⟩] },
    .collect 0 0 1,
    .record { value := -3, attributes := [⟨"a", .int 1⟩] },
    .record { value := 2, attributes := [⟨"a", .int 1⟩] },
    .collect 2 0 2,
    .shutdown 0 3,
    .collect 1 0 4]

theorem readers_are_independent_interleaved :
    ∃ i : Instrument Int64,
      new default (.sum true) .alwaysOff 1 [{ temporality := .delta }, {}] = .ok i ∧
        i.results 1 interleavedCommands =
          (Collector.new ⟨.alwaysOff, .fixedSize 1⟩ default {} : Collector Int64 (.sum true)).results
            (interleavedCommands.filterMap (Command.heardBy (.sum true) 1)) ∧
        ∀ m ∈ i.results 2 interleavedCommands, m = none := by
  obtain ⟨i, hnew⟩ : ∃ i : Instrument Int64,
      new default (.sum true) .alwaysOff 1 [{ temporality := .delta }, {}] = .ok i := ⟨_, rfl⟩
  refine ⟨i, hnew, ?_, ?_⟩
  · obtain ⟨k, sampling, hkind, hsampling, hresults⟩ :=
      (readers_are_independent _ _ _ _ _ hnew interleavedCommands 1).1 {} rfl (by decide)
    cases hkind
    cases hsampling
    exact hresults
  · exact (readers_are_independent _ _ _ _ _ hnew interleavedCommands 2).2 (.inr (by decide))

end Metering.Instrument
