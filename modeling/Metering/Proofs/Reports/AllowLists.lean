import Metering.Proofs.Attribute.Reordering
import Metering.Proofs.Collector.Mirror

/-!
# What an allow-list does

An allow-list does no more than recorders could do that leave attributes out themselves
(`allow_list_is_filtering_by_recorders`). The collector takes the last value of each key, puts the
keys in order and then drops those that are not allowed; without the others in the list from the
start it comes to the same set, and from there on to the same series. -/

namespace Metering

variable {T : Type} {k : Kind}

/-- The commands are the same, except that the second recorder leaves out the attributes with other
keys than these. Its spans and draws may differ, and so may its times as long as they correspond. -/
inductive Command.Strips (sync : Time → Time → Prop) (keys : List String) :
    Command T → Command T → Prop where
  | record {r r' : Recording T}
    (attributes : r'.attributes = r.attributes.filter fun a => keys.contains a.key)
    (value : r.value = r'.value) (time : sync r.time r'.time) :
    Strips sync keys (.record r) (.record r')
  | recordHeld (id : Nat) {r r' : Recording T} (value : r.value = r'.value)
    (time : sync r.time r'.time) : Strips sync keys (.recordHeld id r) (.recordHeld id r')
  | other {command : Command T} (hother : command.recording? = none) :
    Strips sync keys command command

variable {sync : Time → Time → Prop} {keys : List String}

/-- Stripped commands do the same without the allow-list. -/
theorem Command.Strips.alike {command command' : Command T}
    (h : command.Strips sync keys command') : command.Alike sync ⟨some keys⟩ ⟨none⟩ command' := by
  cases h with
  | record hattributes hvalue htime =>
    refine .record ?_ hvalue htime
    rw [KeyFilter.apply_eq_ofList_filter, hattributes]
    rfl
  | recordHeld id hvalue htime => exact .recordHeld id hvalue htime
  | other hother => exact alike_self hother _ _

namespace Collector

variable [Quantity T]

/-- **An allow-list is filtering by recorders.** Take a collector with an allow-list and one with
the same configuration but without it, and any commands. If the second one gets each recording
without the attributes whose keys are not allowed, then the same is observed of both, step by step:
the same points, exemplars and times of recordings aside, or none, and the same counts of series and
overflows. If the latest value counts, the times of the recordings have to be in the same order in
both. -/
theorem allow_list_is_filtering_by_recorders (sampling sampling' : SamplingPlan T) (stream : Stream)
    {config : ReaderConfig} (hkeys : config.filter = ⟨some keys⟩)
    (hsync : k = .lastValue → KeepsOrder sync) {commands commands' : List (Command T)}
    (hcommands : List.Forall₂ (Command.Strips sync keys) commands commands') :
    (new sampling stream config : Collector T k).observations commands =
      (new sampling' stream { config with filter := ⟨none⟩ }).observations commands' := by
  refine (mirrors_new sampling sampling' stream config ⟨none⟩).observations_eq hsync ?_
  refine hcommands.imp fun command command' h => ?_
  show command.Alike sync config.filter ⟨none⟩ command'
  rw [hkeys]
  exact h.alike

/-- Only the key `a` is allowed. -/
def selective : ReaderConfig := { (default : ReaderConfig) with filter := ⟨some ["a"]⟩ }

/-- The key `a` is given twice, and then not at all, at an earlier time. -/
def selectedCommands : List (Command Int64) :=
  [.record { value := 1, attributes := [⟨"a", .int 1⟩, ⟨"b", .int 2⟩, ⟨"a", .int 3⟩], time := 5 },
    .record { value := 2, attributes := [⟨"b", .int 2⟩], time := 4 }, .collect 0 9,
    .record { value := 3, attributes := [⟨"a", .int 3⟩], time := 2 }, .shutdown 0 10]

/-- The same without the key `b`, ten ticks later. -/
def strippedCommands : List (Command Int64) :=
  [.record { value := 1, attributes := [⟨"a", .int 1⟩, ⟨"a", .int 3⟩], time := 15 },
    .record { value := 2, time := 14 }, .collect 0 9,
    .record { value := 3, attributes := [⟨"a", .int 3⟩], time := 12 }, .shutdown 0 10]

theorem allow_list_is_filtering_by_recorders_later :
    let first : Collector Int64 .lastValue := new .none default selective
    let first' : Collector Int64 .lastValue :=
      new .none default { selective with filter := ⟨none⟩ }
    List.Forall₂ (Command.Strips (fun time time' => time' = time + 10) ["a"]) selectedCommands
        strippedCommands ∧
      (first.observations selectedCommands).map (·.seriesCount) = [1, 2, 2, 2, 0] ∧
      first.observations selectedCommands = first'.observations strippedCommands := by
  intro first first'
  have hcommands : List.Forall₂ (Command.Strips (fun time time' => time' = time + 10) ["a"])
      selectedCommands strippedCommands :=
    .cons (.record rfl rfl rfl) (.cons (.record rfl rfl rfl) (.cons (.other rfl)
      (.cons (.record rfl rfl rfl) (.cons (.other rfl) .nil))))
  have hsync : KeepsOrder fun time time' => time' = time + 10 := by
    intro a a' b b' ha hb
    subst ha hb
    exact (Int.add_lt_add_iff_right 10).symm
  refine ⟨hcommands, by decide +kernel, ?_⟩
  exact allow_list_is_filtering_by_recorders .none .none default rfl (fun _ => hsync) hcommands

end Collector

end Metering
