import Metering.Proofs.Collector.Mirror
import Metering.Proofs.Reports.Exemplars

/-!
# What sampling leaves alone

Exemplars are all that depends on sampling (`sampling_changes_no_number`). A recording is folded into
the tally of its series before it is offered to the sampler, a drain hands out both, and a merge
joins tallies without a look at exemplars. So collectors that sample differently, or draw differently,
stay mirrors of each other. -/

namespace Metering

variable {T : Type} {k : Kind}

/-- The recordings are the same, except for the span that they were made in and the number drawn for
them. Their times correspond. -/
structure Recording.Resampled (sync : Time → Time → Prop) (r r' : Recording T) : Prop where
  value : r.value = r'.value
  attributes : r.attributes = r'.attributes
  time : sync r.time r'.time

/-- The commands are the same, except for the spans and draws of what they record. -/
inductive Command.Resampled (sync : Time → Time → Prop) : Command T → Command T → Prop where
  | record {r r' : Recording T} (recording : r.Resampled sync r') :
    Resampled sync (.record r) (.record r')
  | recordHeld (id : Nat) {r r' : Recording T} (recording : r.Resampled sync r') :
    Resampled sync (.recordHeld id r) (.recordHeld id r')
  | other {command : Command T} (hother : command.recording? = none) :
    Resampled sync command command

variable {sync : Time → Time → Prop}

/-- Resampled commands do the same, whatever the filter of the collector. -/
theorem Command.Resampled.alike {command command' : Command T}
    (h : command.Resampled sync command') (filter : KeyFilter) :
    command.Alike sync filter filter command' := by
  cases h with
  | record h => exact .record (congrArg filter.apply h.attributes) h.value h.time
  | recordHeld id h => exact .recordHeld id h.value h.time
  | other hother => exact alike_self hother filter filter

/-- Times that are equal are in the same order. -/
theorem keepsOrder_eq : KeepsOrder (Eq : Time → Time → Prop) := by
  rintro a _ b _ rfl rfl
  exact Iff.rfl

namespace Collector

variable [Quantity T]

/-- **Sampling changes no number.** Take two collectors of one kind with the same configuration, each
with any plan for sampling: none, a sample of fixed size, one of the buckets or one of the caller's
making, with any filter. Take commands for each that differ in nothing but the spans that recordings
are made in, the numbers drawn for them, and their times. Then the same is observed of both, step by
step, exemplars and times of recordings aside: which collections and drains come up with nothing, the
attributes and the numbers of all points, the identities of series in hand, and the counts of series
and overflows. If the latest value counts, the times have to be in the same order in both. -/
theorem sampling_changes_no_number (sampling sampling' : SamplingPlan T) (stream : Stream)
    (config : ReaderConfig) (hsync : k = .lastValue → KeepsOrder sync)
    {commands commands' : List (Command T)}
    (hcommands : List.Forall₂ (Command.Resampled sync) commands commands') :
    (new sampling stream config : Collector T k).observations commands =
      (new sampling' stream config).observations commands' := by
  have hmirrors : (new sampling stream config : Collector T k).Mirrors sync
      (new sampling' stream config) := mirrors_new sampling sampling' stream config config.filter
  exact hmirrors.observations_eq hsync (hcommands.imp fun _ _ h => h.alike config.filter)

/-- One series at most is tracked beside the overflow series, until it was idle for one collection. -/
def scarceConfig : ReaderConfig :=
  { limit := 1, limit_pos := Nat.one_pos, maxIdle := some 1, maxIdle_ne_zero := nofun }

/-- Every recording in a sampled span takes the only slot that its draw leaves to it. -/
def sampledOnce : SamplingPlan Int64 := ⟨.traceBased, .fixedSize 1⟩

/-- The last recording below 0, and the last one from 0 on. -/
def sampledBySign : SamplingPlan Int64 := ⟨.alwaysOn, .alignedBuckets [.ofInt 0]⟩

/-- Two series, one of them in hand for a while; nothing is recorded into it after it was drained. -/
def spannedCommands (span : SpanContext) (draw : Nat) : List (Command Int64) :=
  [.record { value := 1, attributes := [⟨"a", .int 1⟩], time := 5, span, draw },
    .hold (.ofList [⟨"a", .int 2⟩]), .recordHeld 1 { value := -2, time := 4, span, draw },
    .drainHeld 1 .overflow, .release 1, .collect 0 9,
    .record { value := -3, attributes := [⟨"a", .int 1⟩], time := 2, span, draw },
    .collect 0 10, .shutdown 0 11]

theorem sampling_changes_no_number_by_sign :
    let first : Collector Int64 .lastValue := new sampledOnce default scarceConfig
    let first' : Collector Int64 .lastValue := new sampledBySign default scarceConfig
    let commands := spannedCommands .none 0
    let commands' := spannedCommands tracedSpan 1
    List.Forall₂ (Command.Resampled Eq) commands commands' ∧
      exemplarCounts (first.run commands).1 = [[0], [0], [0]] ∧
      exemplarCounts (first'.run commands').1 = [[1], [1], [1]] ∧
      first.observations commands = first'.observations commands' := by
  intro first first' commands commands'
  have hcommands : List.Forall₂ (Command.Resampled Eq) commands commands' :=
    .cons (.record ⟨rfl, rfl, rfl⟩) (.cons (.other rfl) (.cons (.recordHeld 1 ⟨rfl, rfl, rfl⟩)
      (.cons (.other rfl) (.cons (.other rfl) (.cons (.other rfl) (.cons (.record ⟨rfl, rfl, rfl⟩)
        (.cons (.other rfl) (.cons (.other rfl) .nil))))))))
  refine ⟨hcommands, by decide +kernel, by decide +kernel, ?_⟩
  exact sampling_changes_no_number sampledOnce sampledBySign default scarceConfig
    (fun _ => keepsOrder_eq) hcommands

end Collector

end Metering
