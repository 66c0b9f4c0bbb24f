import Metering.Proofs.Collector.Hands
import Metering.Proofs.Interleaving.Run

/-!
# Commands among the steps

Commands are steps with nothing in between, so that whatever a run of commands leads to before a
shutdown, a run of steps leads to (`exists_steps_of_run`). What holds of a shared collector after any
steps thereby holds of a collector after any commands.
-/

namespace Metering

variable {T : Type} {k : Kind} [Quantity T]

namespace Shared

variable {s s' : Shared T k} {j j' : Journal T}

/-- No step is a shutdown. -/
theorem shutDown_step? {step : Step T} (h : s.step? step = some s') :
    s'.collector.shutDown = s.collector.shutDown := by
  cases step with
  | recorder move =>
    obtain ⟨-, rfl⟩ := move_of_step? h
    cases move with
    | acquire set => exact s.collector.shutDown_acquire set
    | fold id r => rfl
    | drain id point => rfl
    | release id => rfl
  | snapshot start time =>
    obtain ⟨-, rfl⟩ := snapshot_of_step? h
    rfl
  | drain id =>
    obtain ⟨cycle, -, -, rfl⟩ := drain_of_step? h
    exact congrArg Collector.Frame.shutDown (s.collector.frame_drainSeries _ id)
  | evict =>
    obtain ⟨cycle, -, -, rfl⟩ := evict_of_step? h
    exact congrArg Collector.Frame.shutDown (s.collector.frame_evictIdle cycle)
  | finish =>
    obtain ⟨cycle, -, rfl⟩ := finish_of_step? h
    exact congrArg Collector.Frame.shutDown (s.collector.frame_finish cycle)

theorem shutDown_run? {steps : List (Step T)} (hrun : s.run? j steps = some (s', j')) :
    s'.collector.shutDown = s.collector.shutDown :=
  run?_preserves (P := fun after _ => after.collector.shutDown = s.collector.shutDown)
    (fun hsame hstep _ => (shutDown_step? hstep).trans hsame) rfl hrun fun _ _ => trivial

namespace Rested

/-- A series that somebody holds is in the hands of a recorder. -/
theorem hands_of_isHeld (h : s.Rested j) {id : Nat} (hheld : s.collector.IsHeld id) :
    0 < s.hands id := by
  obtain ⟨series, hseries, rfl, hpos⟩ := hheld
  rw [h.sound.detached, List.append_nil] at hseries
  rwa [h.inHands.holders series hseries] at hpos

/-- A recorder may make a move that needs a series which somebody holds. -/
theorem exists_steps_of_move (h : s.Rested j) (move : Move T) (hreflexive : move.IsReflexive)
    (hheld : ∀ id ∈ move.series?, s.collector.IsHeld id) :
    ∃ steps s' j', s.run? j steps = some (s', j') ∧ (∀ step ∈ steps, step.IsReflexive) ∧
      s'.stage = .resting ∧ s'.collector = s.collector.move move := by
  have hstep := step?_move (s := s) fun id hid => h.hands_of_isHeld (hheld id hid)
  refine ⟨[.recorder move], _, _, run?_cons.2 ⟨_, hstep, rfl⟩, fun step hmem => ?_, h.stage, rfl⟩
  rw [List.mem_singleton.1 hmem]
  exact hreflexive

/-- Steps that carry out a command. -/
theorem exists_steps (h : s.Rested j) (hrunning : s.collector.shutDown = false)
    {command : Command T} (hpermits : s.collector.Permits command)
    (hreflexive : command.IsReflexive s.collector.config.filter) :
    ∃ steps s' j', s.run? j steps = some (s', j') ∧ (∀ step ∈ steps, step.IsReflexive) ∧
      s'.stage = .resting ∧ s'.collector = (s.collector.perform command).2 := by
  have hheld {id : Nat} (hid : s.collector.IsHeld id) : ∀ other ∈ some id, s.collector.IsHeld other :=
    fun _ hother => Option.mem_some.1 hother ▸ hid
  cases command with
  | record r =>
    obtain ⟨j', hrun⟩ := s.record_eq_steps j hrunning r
    refine ⟨_, _, j', hrun, List.forall_mem_cons.2 ⟨hreflexive, ?_⟩, h.stage, rfl⟩
    exact List.forall_mem_cons.2 ⟨trivial, List.forall_mem_singleton.2 trivial⟩
  | hold set => exact h.exists_steps_of_move (.acquire set) hreflexive nofun
  | recordHeld id r => exact h.exists_steps_of_move (.fold id r) trivial (hheld hpermits.2)
  | drainHeld id point => exact h.exists_steps_of_move (.drain id point) trivial (hheld hpermits.2)
  | release id => exact h.exists_steps_of_move (.release id) trivial (hheld hpermits.2)
  | collect start time =>
    obtain ⟨c, hands, stage⟩ := s
    obtain rfl : stage = .resting := h.stage
    obtain ⟨after, cycle, j', hrun, hfinish⟩ := collect_eq_steps c hands j start time
    refine ⟨_ ++ [.finish], _, _, (run?_append hrun _).trans rfl, fun step hmem => ?_, rfl,
      congrArg Prod.snd hfinish⟩
    cases step with
    | recorder move => simp at hmem
    | snapshot start time => trivial
    | drain id => trivial
    | evict => trivial
    | finish => trivial
  | shutdown start time => exact absurd trivial hpermits.1

/-- Steps that carry out commands one after another. -/
theorem exists_steps_run (h : s.Rested j) (hrunning : s.collector.shutDown = false)
    {commands : List (Command T)} (hpermits : s.collector.PermitsAll commands)
    (hreflexive : ∀ command ∈ commands, command.IsReflexive s.collector.config.filter) :
    ∃ steps s' j', s.run? j steps = some (s', j') ∧ (∀ step ∈ steps, step.IsReflexive) ∧
      s'.stage = .resting ∧ s'.collector = (s.collector.run commands).2 := by
  induction commands generalizing s j with
  | nil => exact ⟨[], s, j, rfl, nofun, h.stage, rfl⟩
  | cons command rest ih =>
    obtain ⟨steps, mid, jmid, hrun, hsteps, hstage, hmid⟩ :=
      h.exists_steps hrunning hpermits.1 (hreflexive command List.mem_cons_self)
    -- between two commands the collector is at rest, so the next one can begin
    have hrested : mid.Rested jmid :=
      (InOrder.run (.inl h) hrun hsteps).rested_of_resting hstage
    have hconfig : mid.collector.config = s.collector.config := by
      rw [hmid]
      exact s.collector.config_perform command
    obtain ⟨more, s', j', hmore, hmoreSteps, hrests, hs'⟩ := ih hrested
      ((shutDown_run? hrun).trans hrunning) (hmid ▸ hpermits.2)
      fun other hother => hconfig ▸ hreflexive other (List.mem_cons_of_mem _ hother)
    refine ⟨steps ++ more, s', j', (run?_append hrun more).trans hmore, fun step hmem => ?_, hrests, ?_⟩
    · exact (List.mem_append.1 hmem).elim (hsteps step) (hmoreSteps step)
    · rw [hs', hmid]
      rfl

end Rested

/-- **Commands are steps.** What any commands lead to that are permitted before a shutdown and look only
for sets that equal themselves, some steps lead to. -/
theorem exists_steps_of_run (sampling : SamplingPlan T) (stream : Stream) (config : ReaderConfig)
    {commands : List (Command T)}
    (hpermits : (Collector.new sampling stream config : Collector T k).PermitsAll commands)
    (hreflexive : ∀ command ∈ commands, command.IsReflexive config.filter) :
    ∃ steps s j, (new sampling stream config : Shared T k).run? (fun _ => {}) steps = some (s, j) ∧
      (∀ step ∈ steps, step.IsReflexive) ∧ s.stage = .resting ∧
      s.collector = ((Collector.new sampling stream config : Collector T k).run commands).2 :=
  (rested_new sampling stream config).exists_steps_run rfl hpermits hreflexive

end Shared

end Metering
