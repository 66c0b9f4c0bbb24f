import Metering.Collector.Run
import Mathlib.Data.List.Basic

/-!
# Settings of a collector

The sampling plan, the stream and the configuration of a collector are fixed when it is set up: no
command changes them. A collection changes nothing beyond the series, what is kept of them, and the
time of the last collection; all else is its `frame`.
-/

namespace Metering

variable {T : Type} {k : Kind} [Quantity T]

/-- Series are evicted once a collection found nothing in them. -/
def ReaderConfig.evicting : ReaderConfig :=
  { (default : ReaderConfig) with maxIdle := some 1, maxIdle_ne_zero := by decide }

namespace Collector

/-- What a collector is set up with. -/
structure Settings (T : Type) where
  sampling : SamplingPlan T
  stream : Stream
  config : ReaderConfig

/-- What the collector was set up with. -/
def settings (c : Collector T k) : Settings T := ⟨c.sampling, c.stream, c.config⟩

/-- What a collection leaves as it is. -/
structure Frame (T : Type) extends Settings T where
  overflowCount : UInt64
  shutDown : Bool
  nextId : Nat

def frame (c : Collector T k) : Frame T := ⟨c.settings, c.overflowCount, c.shutDown, c.nextId⟩

/-! ## Acquiring and recording -/

/-- Acquiring a series does not change the settings. -/
theorem settings_acquire (c : Collector T k) (set : AttributeSet) :
    (c.acquire set).2.settings = c.settings := by
  unfold acquire
  split
  · rfl
  · split
    · dsimp only
      split <;> rfl
    · rfl

/-- Recording does not change the settings. -/
theorem settings_record (c : Collector T k) (r : Recording T) :
    (c.record r).settings = c.settings := by
  unfold record
  split
  · rfl
  · exact settings_acquire c _

/-- Acquiring a series shuts nothing down. -/
theorem shutDown_acquire (c : Collector T k) (set : AttributeSet) :
    (c.acquire set).2.shutDown = c.shutDown := by
  unfold acquire
  split
  · rfl
  · split
    · dsimp only
      split <;> rfl
    · rfl

/-- Recording shuts nothing down. -/
theorem shutDown_record (c : Collector T k) (r : Recording T) :
    (c.record r).shutDown = c.shutDown := by
  unfold record
  split
  · rfl
  · exact c.shutDown_acquire _

/-! ## Collections -/

omit [Quantity T] in
/-- Steps that keep the frame keep it when they follow one another. -/
theorem frame_foldl {α β : Type} (f : β × Collector T k → α → β × Collector T k)
    (hf : ∀ s a, (f s a).2.frame = s.2.frame) (l : List α) (s : β × Collector T k) :
    (l.foldl f s).2.frame = s.2.frame := by
  induction l generalizing s with
  | nil => rfl
  | cons a rest ih => exact (ih (f s a)).trans (hf s a)

/-- A drain is about one series and what is kept of it. -/
theorem frame_drainSeries (c : Collector T k) (cycle : Cycle T k) (id : Nat) :
    (c.drainSeries cycle id).2.frame = c.frame := by
  unfold drainSeries
  split
  · rfl
  · dsimp only
    split <;> rfl

theorem frame_drainNext (c : Collector T k) (cycle : Cycle T k) :
    (c.drainNext cycle).2.frame = c.frame := by
  unfold drainNext
  split
  · rfl
  · exact frame_drainSeries c _ _

/-- An eviction is about one series and the cycle. -/
theorem frame_evict (c : Collector T k) (cycle : Cycle T k) (set : AttributeSet) :
    (c.evict cycle set).2.frame = c.frame := by
  unfold evict
  split
  · rfl
  · dsimp only
    split
    · rfl
    · split <;> rfl

theorem frame_evictIdle (c : Collector T k) (cycle : Cycle T k) :
    (c.evictIdle cycle).2.frame = c.frame := by
  unfold evictIdle
  split
  · rfl
  · exact frame_foldl _ (fun s set => frame_evict s.2 s.1 set) _ _

/-- The end of a collection is about what is kept. -/
theorem frame_finish (c : Collector T k) (cycle : Cycle T k) :
    (c.finish cycle).2.frame = c.frame := by
  unfold finish
  dsimp only
  split <;> split <;> rfl

/-- A collection changes neither the settings nor the overflow count, opens no series and shuts
nothing down. -/
theorem frame_collect (c : Collector T k) (start time : Time) :
    (c.collect start time).2.frame = c.frame := by
  have hdrain : ((c.beginCycle start time).2.drainPending (c.beginCycle start time).1).2.frame =
      c.frame :=
    frame_foldl _ (fun s _ => frame_drainNext s.2 s.1) _ _
  exact (frame_finish _ _).trans ((frame_evictIdle _ _).trans hdrain)

theorem settings_collect (c : Collector T k) (start time : Time) :
    (c.collect start time).2.settings = c.settings :=
  congrArg Frame.toSettings (c.frame_collect start time)

/-! ## Commands -/

theorem settings_shutdown (c : Collector T k) (start time : Time) :
    (c.shutdown start time).2.settings = c.settings := by
  unfold shutdown
  split
  · rfl
  · exact settings_collect { c with shutDown := true } start time

/-- No command changes the settings. -/
theorem settings_perform (c : Collector T k) (command : Command T) :
    (c.perform command).2.settings = c.settings := by
  cases command with
  | record r => exact settings_record c r
  | hold set => exact settings_acquire c set
  | recordHeld id r => rfl
  | drainHeld id point => rfl
  | release id => rfl
  | collect start time => exact settings_collect c start time
  | shutdown start time => exact settings_shutdown c start time

/-- After a run the settings are what they were. -/
theorem settings_run (c : Collector T k) (commands : List (Command T)) :
    (c.run commands).2.settings = c.settings := by
  induction commands generalizing c with
  | nil => rfl
  | cons command rest ih => exact (ih _).trans (settings_perform c command)

/-- No command changes how the reader is configured. -/
theorem config_perform (c : Collector T k) (command : Command T) :
    (c.perform command).2.config = c.config :=
  congrArg Settings.config (settings_perform c command)

/-- No run changes how the reader is configured. -/
theorem config_run (c : Collector T k) (commands : List (Command T)) :
    (c.run commands).2.config = c.config :=
  congrArg Settings.config (settings_run c commands)

/-- A run goes on where another ended. -/
theorem run_append (c : Collector T k) (commands more : List (Command T)) :
    (c.run (commands ++ more)).2 = ((c.run commands).2.run more).2 := by
  induction commands generalizing c with
  | nil => rfl
  | cons command rest ih => exact ih (c.perform command).2

/-- The reply at a position is that to the command at the position. -/
theorem getElem?_replies (c : Collector T k) (commands : List (Command T)) (n : Nat) :
    (c.run commands).1[n]? =
      commands[n]?.map fun command => ((c.run (commands.take n)).2.perform command).1 := by
  induction commands generalizing c n with
  | nil => rfl
  | cons command rest ih =>
    cases n with
    | zero => rfl
    | succ n => exact ih (c.perform command).2 n

/-- A reply in a run is the reply to one of its commands. -/
theorem mem_replies {c : Collector T k} {commands : List (Command T)} {reply : Reply T k}
    (h : reply ∈ (c.run commands).1) :
    ∃ before command after, commands = before ++ command :: after ∧
      reply = ((c.run before).2.perform command).1 := by
  induction commands generalizing c with
  | nil => cases h
  | cons command rest ih =>
    rcases List.mem_cons.1 h with rfl | h
    · exact ⟨[], command, rest, rfl, rfl⟩
    · obtain ⟨before, other, after, rfl, hreply⟩ := ih h
      exact ⟨command :: before, other, after, rfl, hreply⟩

end Collector

end Metering
