import Metering.Proofs.Collector.Ledger
import Metering.Proofs.Collector.Settings
import Metering.Proofs.Interleaving.Journal

/-!
# A collector that is shared

Recorders and a reader share a collector. What each of them does is cut into steps that take effect at
once, and a run is any sequence of such steps: recorders acquire a series, fold recordings into it and
release it (`Move`); the reader notes the live series, drains them one after another in any order,
evicts those that were idle for too long, and reports (`Step`). Recorders use only series that they
acquired, and may always use those, whatever the collector did with them since. The commands of a
collector are such steps with nothing in between (`record_eq_steps`, `collect_eq_steps`).
-/

namespace Metering

variable {T : Type} {k : Kind} [Quantity T]

/-! ## What recorders do -/

namespace Collector

/-- The collector after a move. -/
def move (c : Collector T k) : Move T → Collector T k
  | .acquire set => (c.acquire set).2
  | .fold id r => c.recordHeld id r
  | .drain id point => (c.drainHeld id point).2
  | .release id => c.release id

/-- Recorders do not change the settings of a collector. -/
theorem settings_move (c : Collector T k) (move : Move T) : (c.move move).settings = c.settings := by
  cases move with
  | acquire set => exact settings_acquire c set
  | fold id r => rfl
  | drain id point => rfl
  | release id => rfl

/-- How many recorders have each series in hand after a move. -/
def handsAfter (c : Collector T k) (hands : Nat → Nat) : Move T → Nat → Nat
  | .acquire set =>
    let id := (c.acquire set).1
    Function.update hands id (hands id + 1)
  | .release id => Function.update hands id (hands id - 1)
  | .fold _ _ | .drain _ _ => hands

end Collector

/-! ## What the reader does -/

/-- How far a collection has come. -/
inductive Stage (T : Type) (k : Kind) where
  /-- None is under way. -/
  | resting
  | draining (cycle : Cycle T k)
  | evicted (cycle : Cycle T k)

/-- A collector with those that share it. -/
structure Shared (T : Type) (k : Kind) where
  collector : Collector T k
  /-- How many recorders have each series in hand. -/
  hands : Nat → Nat := fun _ => 0
  /-- What the reader is at. -/
  stage : Stage T k := .resting

/-- One step of anybody. -/
inductive Step (T : Type) where
  | recorder (move : Move T)
  /-- Begin a collection of the series that are live. -/
  | snapshot (start time : Time)
  /-- Drain one of them that was not drained yet. -/
  | drain (id : Nat)
  /-- Evict what was idle for too long, once all are drained. -/
  | evict
  /-- Report. -/
  | finish

namespace Step

def IsReflexive : Step T → Prop
  | .recorder move => move.IsReflexive
  | .snapshot _ _ | .drain _ | .evict | .finish => True

instance : (step : Step T) → Decidable step.IsReflexive
  | .recorder move => inferInstanceAs (Decidable move.IsReflexive)
  | .snapshot _ _ | .drain _ | .evict | .finish => inferInstanceAs (Decidable True)

/-- The step may come between the first and the last one of a collection, and it leaves recordings to
collections. -/
def IsBetween : Step T → Prop
  | .recorder (.drain _ _) | .snapshot _ _ | .finish => False
  | .recorder _ | .drain _ | .evict => True

instance : (step : Step T) → Decidable step.IsBetween
  | .recorder (.drain _ _) | .snapshot _ _ | .finish => inferInstanceAs (Decidable False)
  | .recorder (.acquire _) | .recorder (.fold _ _) | .recorder (.release _) | .drain _ | .evict =>
    inferInstanceAs (Decidable True)

omit [Quantity T] in
/-- A step in between does not end a collection. -/
theorem IsBetween.ne_finish {step : Step T} (h : step.IsBetween) : step ≠ .finish := by
  rintro rfl
  exact h

/-- The step drains a series for a recorder. -/
def takes (id : Nat) : Step T → Bool
  | .recorder (.drain other _) => other == id
  | _ => false

omit [Quantity T] in
/-- A step in between leaves all that waits to collections. -/
theorem IsBetween.takes {step : Step T} (h : step.IsBetween) (id : Nat) : step.takes id = false := by
  cases step with
  | recorder move =>
    cases move with
    | drain other point => exact h.elim
    | acquire set => rfl
    | fold other r => rfl
    | release other => rfl
  | snapshot start time => rfl
  | drain other => rfl
  | evict => rfl
  | finish => rfl

/-- What a step folds into a series. -/
def folded (id : Nat) : Step T → List (Recording T)
  | .recorder move => move.folded id
  | .snapshot _ _ | .drain _ | .evict | .finish => []

end Step

/-- What steps fold into a series, one after another. -/
def foldedInto (steps : List (Step T)) (id : Nat) : List (Recording T) :=
  steps.flatMap (Step.folded id)

/-- Note that what waited in series that are no longer live was drained. -/
def Journal.settle (j : Journal T) (c : Collector T k) : Journal T := fun id =>
  if c.live.any (·.id == id) then j id else (j id).drain

omit [Quantity T] in
/-- Settling what became of series changes nothing that earlier collections reported. -/
@[simp] theorem Journal.reported_settle (j : Journal T) (c : Collector T k) (id : Nat) :
    (j.settle c id).reported = (j id).reported := by
  simp only [settle]
  split <;> rfl

namespace Shared

def new (sampling : SamplingPlan T) (stream : Stream) (config : ReaderConfig) : Shared T k :=
  { collector := .new sampling stream config }

/-- The series still to be drained. -/
def pending (s : Shared T k) : List Nat :=
  match s.stage with
  | .draining cycle => cycle.pending
  | .resting | .evicted _ => []

omit [Quantity T] in
/-- While series are drained, those of the cycle are pending that are left. -/
theorem pending_of_draining {s : Shared T k} {cycle : Cycle T k} (h : s.stage = .draining cycle) :
    s.pending = cycle.pending := by
  rw [pending, h]

omit [Quantity T] in
/-- After the eviction, none is. -/
theorem pending_of_evicted {s : Shared T k} {cycle : Cycle T k} (h : s.stage = .evicted cycle) :
    s.pending = [] := by
  rw [pending, h]

/-- What a step leads to, if it may be made: recorders may use what they have in hand, and the reader
keeps to the order of a collection. -/
def step? (s : Shared T k) : Step T → Option (Shared T k)
  | .recorder move =>
    if ∀ id ∈ move.series?, 0 < s.hands id then
      some { s with
        collector := s.collector.move move
        hands := s.collector.handsAfter s.hands move }
    else none
  | .snapshot start time =>
    match s.stage with
    | .resting =>
      let (cycle, c) := s.collector.beginCycle start time
      some { s with collector := c, stage := .draining cycle }
    | .draining _ | .evicted _ => none
  | .drain id =>
    match s.stage with
    | .draining cycle =>
      if id ∈ cycle.pending then
        let (cycle, c) := s.collector.drainSeries { cycle with pending := cycle.pending.erase id } id
        some { s with collector := c, stage := .draining cycle }
      else none
    | .resting | .evicted _ => none
  | .evict =>
    match s.stage with
    | .draining cycle =>
      if cycle.pending = [] then
        let (cycle, c) := s.collector.evictIdle cycle
        some { s with collector := c, stage := .evicted cycle }
      else none
    | .resting | .evicted _ => none
  | .finish =>
    match s.stage with
    | .evicted cycle => some { s with collector := (s.collector.finish cycle).2, stage := .resting }
    | .resting | .draining _ => none

/-- Note what a step to `after` does. -/
def note (j : Journal T) (step : Step T) (after : Shared T k) : Journal T :=
  match step with
  | .recorder move => j.move move
  | .snapshot _ _ => j
  | .drain id => j.drain id
  | .evict => j.settle after.collector
  | .finish => fun id => (j id).close

/-- Where steps lead that are made one after another, with the journal as it goes on. -/
def run? (s : Shared T k) (j : Journal T) : List (Step T) → Option (Shared T k × Journal T)
  | [] => some (s, j)
  | step :: rest => (s.step? step).bind fun after => after.run? (note j step after) rest

/-- A run makes its first step and goes on from there. -/
theorem run?_cons {s : Shared T k} {j : Journal T} {step : Step T} {rest : List (Step T)}
    {last : Shared T k × Journal T} :
    s.run? j (step :: rest) = some last ↔
      ∃ after, s.step? step = some after ∧ after.run? (note j step after) rest = some last :=
  Option.bind_eq_some_iff

/-- A run goes on where the steps before it lead. -/
theorem run?_append {s mid : Shared T k} {j jmid : Journal T} {steps : List (Step T)}
    (h : s.run? j steps = some (mid, jmid)) (more : List (Step T)) :
    s.run? j (steps ++ more) = mid.run? jmid more := by
  induction steps generalizing s j with
  | nil =>
    cases h
    rfl
  | cons step rest ih =>
    obtain ⟨after, hstep, hrest⟩ := run?_cons.1 h
    rw [List.cons_append, run?, hstep, Option.bind_some]
    exact ih hrest

/-- A run that goes through has a state in between its parts. -/
theorem exists_of_run?_append {s : Shared T k} {j : Journal T} {steps more : List (Step T)}
    {last : Shared T k × Journal T} (h : s.run? j (steps ++ more) = some last) :
    ∃ mid jmid, s.run? j steps = some (mid, jmid) ∧ mid.run? jmid more = some last := by
  induction steps generalizing s j with
  | nil => exact ⟨s, j, rfl, h⟩
  | cons step rest ih =>
    obtain ⟨after, hstep, hrest⟩ := run?_cons.1 h
    obtain ⟨mid, jmid, hfirst, hmore⟩ := ih hrest
    exact ⟨mid, jmid, run?_cons.2 ⟨after, hstep, hfirst⟩, hmore⟩

/-- What every step keeps that is of some sort, steps of that sort keep when they follow one another. -/
theorem run?_preserves {P : Shared T k → Journal T → Prop} {Q : Step T → Prop}
    (hP : ∀ {s s' : Shared T k} {j : Journal T} {step : Step T},
      P s j → s.step? step = some s' → Q step → P s' (note j step s'))
    {s s' : Shared T k} {j j' : Journal T} (h : P s j) {steps : List (Step T)}
    (hrun : s.run? j steps = some (s', j')) (hQ : ∀ step ∈ steps, Q step) : P s' j' := by
  induction steps generalizing s j with
  | nil =>
    cases hrun
    exact h
  | cons step rest ih =>
    obtain ⟨after, hstep, hrest⟩ := run?_cons.1 hrun
    exact ih (hP h hstep (hQ step List.mem_cons_self)) hrest fun other hother =>
      hQ other (List.mem_cons_of_mem _ hother)

/-! ## What a step can be -/

section Inversion

variable {s s' : Shared T k}

/-- A recorder may do what needs no series, or one that is in hand. -/
theorem step?_move {move : Move T} (h : ∀ id ∈ move.series?, 0 < s.hands id) :
    s.step? (.recorder move) =
      some { s with
        collector := s.collector.move move
        hands := s.collector.handsAfter s.hands move } := by
  rw [step?, if_pos h]

/-- What a recorder did was allowed, and the reader did not notice. -/
theorem move_of_step? {move : Move T} (h : s.step? (.recorder move) = some s') :
    (∀ id ∈ move.series?, 0 < s.hands id) ∧
      s' = { s with
        collector := s.collector.move move
        hands := s.collector.handsAfter s.hands move } := by
  simp only [step?, Option.ite_none_right_eq_some, Option.some.injEq] at h
  exact ⟨h.1, h.2.symm⟩

/-- A drain happens during a collection, to a series that is pending. -/
theorem drain_of_step? {id : Nat} (h : s.step? (.drain id) = some s') :
    ∃ cycle, s.stage = .draining cycle ∧ id ∈ cycle.pending ∧
      let next := s.collector.drainSeries { cycle with pending := cycle.pending.erase id } id
      s' = { s with collector := next.2, stage := .draining next.1 } := by
  -- at the other stages a drain is no step, so that `h` says nothing
  cases hstage : s.stage with
  | draining cycle =>
    simp only [step?, hstage, Option.ite_none_right_eq_some, Option.some.injEq] at h
    exact ⟨cycle, rfl, h.1, h.2.symm⟩
  | resting => simp [step?, hstage] at h
  | evicted cycle => simp [step?, hstage] at h

/-- An eviction comes when nothing is pending any more. -/
theorem evict_of_step? (h : s.step? .evict = some s') :
    ∃ cycle, s.stage = .draining cycle ∧ cycle.pending = [] ∧
      let next := s.collector.evictIdle cycle
      s' = { s with collector := next.2, stage := .evicted next.1 } := by
  cases hstage : s.stage with
  | draining cycle =>
    simp only [step?, hstage, Option.ite_none_right_eq_some, Option.some.injEq] at h
    exact ⟨cycle, rfl, h.1, h.2.symm⟩
  | resting => simp [step?, hstage] at h
  | evicted cycle => simp [step?, hstage] at h

/-- A report comes after the eviction, and nothing is under way then. -/
theorem finish_of_step? (h : s.step? .finish = some s') :
    ∃ cycle, s.stage = .evicted cycle ∧
      s' = { s with collector := (s.collector.finish cycle).2, stage := .resting } := by
  cases hstage : s.stage with
  | evicted cycle =>
    simp only [step?, hstage, Option.some.injEq] at h
    exact ⟨cycle, rfl, h.symm⟩
  | resting => simp [step?, hstage] at h
  | draining cycle => simp [step?, hstage] at h

/-- A snapshot is taken while nothing is under way. -/
theorem snapshot_of_step? {start time : Time} (h : s.step? (.snapshot start time) = some s') :
    s.stage = .resting ∧
      let next := s.collector.beginCycle start time
      s' = { s with collector := next.2, stage := .draining next.1 } := by
  cases hstage : s.stage with
  | resting =>
    simp only [step?, hstage, Option.some.injEq] at h
    exact ⟨rfl, h.symm⟩
  | draining cycle => simp [step?, hstage] at h
  | evicted cycle => simp [step?, hstage] at h

/-- No step changes the settings. -/
theorem settings_step? {step : Step T} (h : s.step? step = some s') :
    s'.collector.settings = s.collector.settings := by
  cases step with
  | recorder move =>
    obtain ⟨-, rfl⟩ := move_of_step? h
    exact s.collector.settings_move move
  | snapshot start time =>
    obtain ⟨-, rfl⟩ := snapshot_of_step? h
    rfl
  | drain id =>
    obtain ⟨cycle, -, -, rfl⟩ := drain_of_step? h
    exact congrArg Collector.Frame.toSettings (s.collector.frame_drainSeries _ id)
  | evict =>
    obtain ⟨cycle, -, -, rfl⟩ := evict_of_step? h
    exact congrArg Collector.Frame.toSettings (s.collector.frame_evictIdle cycle)
  | finish =>
    obtain ⟨cycle, -, rfl⟩ := finish_of_step? h
    exact congrArg Collector.Frame.toSettings (s.collector.frame_finish cycle)

/-- No run changes the settings. -/
theorem settings_run? {j j' : Journal T} {steps : List (Step T)}
    (h : s.run? j steps = some (s', j')) : s'.collector.settings = s.collector.settings :=
  run?_preserves (P := fun after _ => after.collector.settings = s.collector.settings)
    (fun hsame hstep _ => (settings_step? hstep).trans hsame) rfl h fun _ _ => trivial

end Inversion

/-! ## Commands are steps with nothing in between -/

/-- Until a shutdown, recording by attributes acquires a series, folds the recording in and releases
the series again. -/
theorem record_eq_steps (s : Shared T k) (j : Journal T) (h : s.collector.shutDown = false)
    (r : Recording T) :
    let set := s.collector.config.filter.apply r.attributes
    let id := (s.collector.acquire set).1
    ∃ j', s.run? j [.recorder (.acquire set), .recorder (.fold id r), .recorder (.release id)] =
      some ({ s with collector := s.collector.record r }, j') := by
  intro set id
  let acquired := (s.collector.acquire set).2
  let hands := Function.update s.hands id (s.hands id + 1)
  -- acquired once and released once, the series is in as many hands as before
  have hhands : 0 < hands id := by
    rw [show hands id = s.hands id + 1 from Function.update_self ..]
    exact Nat.succ_pos _
  have hreleased : Function.update hands id (hands id - 1) = s.hands := by
    rw [show hands id = s.hands id + 1 from Function.update_self .., Function.update_idem,
      Nat.add_sub_cancel, Function.update_eq_self]
  have hacquire : s.step? (.recorder (.acquire set)) =
      some { s with collector := acquired, hands } :=
    step?_move fun _ hid => absurd hid (Option.not_mem_none _)
  have hfold : step? { s with collector := acquired, hands } (.recorder (.fold id r)) =
      some { s with collector := acquired.recordHeld id r, hands } :=
    step?_move fun _ hid => Option.mem_some.1 hid ▸ hhands
  have hrelease : step? { s with collector := acquired.recordHeld id r, hands }
        (.recorder (.release id)) =
      some { s with collector := (acquired.recordHeld id r).release id } := by
    rw [← hreleased]
    exact step?_move fun _ hid => Option.mem_some.1 hid ▸ hhands
  rw [Collector.record_of_running h, run?, hacquire, Option.bind_some, run?, hfold, Option.bind_some,
    run?, hrelease]
  exact ⟨_, rfl⟩

/-- Draining what is pending in its order. -/
theorem run?_drains (c : Collector T k) (hands : Nat → Nat) (cycle : Cycle T k) (j : Journal T) :
    ∃ j', run? ⟨c, hands, .draining cycle⟩ j (cycle.pending.map .drain) =
      some (⟨(c.drainPending cycle).2, hands, .draining (c.drainPending cycle).1⟩, j') := by
  -- by induction on what is pending, since every drain takes the first of it away
  generalize hids : cycle.pending = ids
  induction ids generalizing c cycle j with
  | nil => exact ⟨j, by rw [Collector.drainPending, hids]; rfl⟩
  | cons id rest ih =>
    have hpending : (c.drainNext cycle).1.pending = rest := by
      rw [Collector.pending_drainNext, hids, List.tail_cons]
    have hdrain : c.drainPending cycle =
        (c.drainNext cycle).2.drainPending (c.drainNext cycle).1 := by
      rw [Collector.drainPending, Collector.drainPending, hids, hpending]
      rfl
    have hstep : step? ⟨c, hands, .draining cycle⟩ (.drain id) =
        some ⟨(c.drainNext cycle).2, hands, .draining (c.drainNext cycle).1⟩ := by
      simp [step?, hids, Collector.drainNext]
    rw [hdrain, List.map_cons, run?, hstep]
    exact ih _ _ _ hpending

/-- A collection is a snapshot, a drain for each live series, an eviction and a report. -/
theorem collect_eq_steps (c : Collector T k) (hands : Nat → Nat) (j : Journal T) (start time : Time) :
    ∃ after cycle j',
      run? ⟨c, hands, .resting⟩ j
          (.snapshot start time :: (c.live.map (·.id)).map .drain ++ [.evict]) =
        some (⟨after, hands, .evicted cycle⟩, j') ∧
      after.finish cycle = c.collect start time := by
  let begun := c.beginCycle start time
  let drained := begun.2.drainPending begun.1
  let evicted := drained.2.evictIdle drained.1
  obtain ⟨j', hrun⟩ := run?_drains begun.2 hands begun.1 j
  have hbegin : run? ⟨c, hands, .resting⟩ j (.snapshot start time :: (c.live.map (·.id)).map .drain) =
      some (⟨drained.2, hands, .draining drained.1⟩, j') := hrun
  -- draining a series adds none to those that are pending
  have hpending : drained.1.pending = [] := by
    show (begun.2.drainPending begun.1).1.pending = []
    rw [Collector.drainPending_eq_foldl]
    have hfold : ∀ (ids : List Nat) (s : Cycle T k × Collector T k),
        (ids.foldl (fun s id => s.2.drainSeries s.1 id) s).1.pending = s.1.pending := by
      intro ids
      induction ids with
      | nil => exact fun _ => rfl
      | cons id rest ih => exact fun s => (ih _).trans (s.2.pending_drainSeries s.1 id)
    exact hfold _ _
  have hevict : run? ⟨drained.2, hands, .draining drained.1⟩ j' [.evict] =
      some (⟨evicted.2, hands, .evicted evicted.1⟩, j'.settle evicted.2) := by
    simp only [run?, step?, hpending, if_true]
    rfl
  exact ⟨evicted.2, evicted.1, _, (run?_append hbegin _).trans hevict, rfl⟩

end Shared

end Metering
