import Metering.Proofs.Interleaving.Steps

/-!
# How recordings pass

Whatever steps are made, each recording is in one place of the journal (`all_run_perm`). As long as no
recorder drains a series for itself, what is folded into the series passes on in its order, from what
waits to what collections drain and report (`untaken_run`). Whatever waits at a snapshot is drained once
its series had its turn (`Passed`).
-/

namespace Metering

variable {T : Type} {k : Kind}

/-! ## Nothing is lost -/

/-- A recorder adds what it folds in. -/
theorem Journal.all_move_perm (j : Journal T) (move : Move T) (id : Nat) :
    (j.move move id).all.Perm ((j id).all ++ move.folded id) := by
  cases move with
  | acquire set => simp [Journal.move, Move.folded]
  | release other => simp [Journal.move, Move.folded]
  | fold other r =>
    by_cases hother : other = id
    · subst hother
      simpa [Journal.move, Move.folded] using (j other).all_add_perm r
    · simp [Journal.move, Move.folded, Function.update_of_ne (Ne.symm hother), hother]
  | drain other point =>
    by_cases hother : other = id
    · subst hother
      simpa [Journal.move, Move.folded] using (j other).all_take_perm
    · simp [Journal.move, Move.folded, Function.update_of_ne (Ne.symm hother)]

namespace Shared

variable {s s' : Shared T k} {j j' : Journal T}

/-- The reader adds nothing and loses nothing. -/
theorem all_note_perm (j : Journal T) (step : Step T) (after : Shared T k) (id : Nat) :
    (note j step after id).all.Perm ((j id).all ++ step.folded id) := by
  cases step with
  | recorder move => exact j.all_move_perm move id
  | snapshot start time => simp [note, Step.folded]
  | finish => simp [note, Step.folded]
  | drain other =>
    by_cases hother : id = other
    · subst hother
      simp [note, Step.folded, j.drain_self]
    · simp [note, Step.folded, j.drain_of_ne hother]
  | evict =>
    simp only [note, Step.folded, Journal.settle, List.append_nil]
    split
    · rfl
    · rw [Passage.all_drain]

theorem all_run_perm [Quantity T] {steps : List (Step T)} (hrun : s.run? j steps = some (s', j'))
    (id : Nat) : (j' id).all.Perm ((j id).all ++ foldedInto steps id) := by
  induction steps generalizing s j with
  | nil =>
    cases hrun
    rw [foldedInto, List.flatMap_nil, List.append_nil]
  | cons step rest ih =>
    obtain ⟨after, -, hrest⟩ := run?_cons.1 hrun
    rw [foldedInto, List.flatMap_cons, ← List.append_assoc]
    exact (ih hrest).trans ((all_note_perm j step after id).append_right _)

/-! ## What nobody takes -/

variable {id : Nat}

/-- Unless a step takes what waits in a series, it adds what it folds into it and loses nothing. -/
theorem untaken_note (j : Journal T) {step : Step T} (htakes : step.takes id = false)
    (after : Shared T k) : (note j step after id).untaken = (j id).untaken ++ step.folded id := by
  -- only folding a recording in adds to what is untaken, and only to its own series
  cases step with
  | recorder move =>
    cases move with
    | acquire set => exact (List.append_nil _).symm
    | release other => exact (List.append_nil _).symm
    | fold other r =>
      by_cases hother : other = id
      · simp [note, Journal.move, Step.folded, Move.folded, hother]
      · simp [note, Journal.move, Step.folded, Move.folded, hother,
          Function.update_of_ne (Ne.symm hother)]
    | drain other point =>
      have hother : other ≠ id := by simpa [Step.takes] using htakes
      simp [note, Journal.move, Step.folded, Move.folded, Function.update_of_ne (Ne.symm hother)]
  | snapshot start time => exact (List.append_nil _).symm
  | drain other =>
    by_cases hother : id = other
    · simp [note, Step.folded, hother, j.drain_self]
    · simp [note, Step.folded, j.drain_of_ne hother]
  | evict =>
    simp only [note, Step.folded, Journal.settle, List.append_nil]
    split
    · rfl
    · exact Passage.untaken_drain _
  | finish => simp [note, Step.folded]

variable [Quantity T]

theorem untaken_run {steps : List (Step T)} (hrun : s.run? j steps = some (s', j'))
    (htakes : ∀ step ∈ steps, step.takes id = false) :
    (j' id).untaken = (j id).untaken ++ foldedInto steps id := by
  induction steps generalizing s j with
  | nil =>
    cases hrun
    exact (List.append_nil _).symm
  | cons step rest ih =>
    obtain ⟨after, -, hrest⟩ := run?_cons.1 hrun
    rw [ih hrest fun other hother => htakes other (List.mem_cons_of_mem _ hother),
      untaken_note j (htakes step List.mem_cons_self), List.append_assoc]
    rfl

/-- What was folded in stays among the recordings that nobody took. -/
theorem untaken_prefix_fold {r : Recording T} {mid : List (Step T)}
    (hrun : s.run? j (.recorder (.fold id r) :: mid) = some (s', j'))
    (htakes : ∀ step ∈ mid, step.takes id = false) : (j id).untaken ++ [r] <+: (j' id).untaken := by
  have huntaken := untaken_run hrun (List.forall_mem_cons.2 ⟨rfl, htakes⟩)
  rw [huntaken, foldedInto, List.flatMap_cons, Step.folded, Move.folded, if_pos rfl,
    ← List.append_assoc]
  exact List.prefix_append _ _

/-! ## From a snapshot on -/

omit [Quantity T] in
/-- Recordings that were folded into a series before a snapshot were collected, unless the series has
its turn yet to come. -/
structure Passed (rs : List (Recording T)) (id : Nat) (s : Shared T k) (j : Journal T) : Prop where
  untaken : rs <+: (j id).untaken
  turn : id ∈ s.pending ∨ rs <+: (j id).collected

namespace Passed

variable {rs : List (Recording T)}

omit [Quantity T] in
/-- Once no series has its turn to come, they all were collected. -/
theorem collected (h : Passed rs id s j) (hpending : s.pending = []) : rs <+: (j id).collected :=
  h.turn.resolve_left (hpending ▸ List.not_mem_nil)

/-- Every step passes recordings on that nobody takes. -/
theorem step (h : Passed rs id s j) {step : Step T} (hstep : s.step? step = some s')
    (htakes : step.takes id = false) : Passed rs id s' (note j step s') := by
  -- the recordings stay untaken; what needs an argument is that they get their turn
  refine ⟨?_, ?_⟩
  · rw [untaken_note j htakes]
    exact h.untaken.trans (List.prefix_append _ _)
  cases step with
  | recorder move =>
    obtain ⟨-, rfl⟩ := move_of_step? hstep
    rw [note, j.collected_move]
    exact h.turn
  | snapshot start time =>
    obtain ⟨hstage, -⟩ := snapshot_of_step? hstep
    exact .inr (h.collected (by rw [pending, hstage]))
  -- the drain of the series itself collects them, and that of another leaves its turn
  | drain other =>
    obtain ⟨cycle, hstage, -, rfl⟩ := drain_of_step? hstep
    by_cases hother : id = other
    · refine .inr ?_
      rw [note, hother, j.drain_self, Passage.collected_drain]
      exact hother ▸ h.untaken
    · rw [note, j.drain_of_ne hother]
      refine h.turn.imp_left fun hturn => ?_
      rw [pending_of_draining hstage] at hturn
      rw [pending_of_draining rfl, Collector.pending_drainSeries]
      exact (List.mem_erase_of_ne hother).2 hturn
  | evict =>
    obtain ⟨cycle, hstage, hpending, -⟩ := evict_of_step? hstep
    have hcollected := h.collected ((pending_of_draining hstage).trans hpending)
    refine .inr ?_
    rw [note, Journal.settle]
    split
    · exact hcollected
    · rw [Passage.collected_drain]
      exact h.untaken
  | finish =>
    obtain ⟨cycle, hstage, -⟩ := finish_of_step? hstep
    refine .inr ?_
    rw [note, Passage.collected_close]
    exact h.collected (pending_of_evicted hstage)

theorem run (h : Passed rs id s j) {steps : List (Step T)} (hrun : s.run? j steps = some (s', j'))
    (htakes : ∀ step ∈ steps, step.takes id = false) : Passed rs id s' j' :=
  run?_preserves (fun h hstep htakes => h.step hstep htakes) h hrun htakes

end Passed

end Shared

end Metering
