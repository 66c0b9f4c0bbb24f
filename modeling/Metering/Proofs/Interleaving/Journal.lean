import Metering.Recording
import Metering.Metric
import Mathlib.Logic.Function.Basic

/-!
# What became of recordings

Recorders acquire a series, fold recordings into it and release it (`Move`). A `Journal` stands beside a
collector that is used so, and says of each series what became of the recordings that were folded into
it. The collector does not look at it.
-/

namespace Metering

variable {T : Type}

/-! ## Passages -/

/-- What became of the recordings that were folded into one series. -/
structure Passage (T : Type) where
  /-- What earlier collections drained, each for itself. -/
  reported : List (List (Recording T)) := []
  /-- What the collection under way drained so far. -/
  drained : List (Recording T) := []
  /-- What waits to be drained. -/
  waiting : List (Recording T) := []
  /-- What recorders drained for themselves. -/
  taken : List (Recording T) := []

/-- The passages of all series, by their identities. -/
abbrev Journal (T : Type) := Nat → Passage T

namespace Passage

/-- What waits is drained. -/
def drain (p : Passage T) : Passage T :=
  { p with drained := p.drained ++ p.waiting, waiting := [] }

/-- The collection under way ends. -/
def close (p : Passage T) : Passage T :=
  { p with reported := p.reported ++ [p.drained], drained := [] }

/-- What waits is drained by a recorder. -/
def take (p : Passage T) : Passage T :=
  { p with waiting := [], taken := p.taken ++ p.waiting }

/-- Another recording waits. -/
def add (p : Passage T) (r : Recording T) : Passage T := { p with waiting := p.waiting ++ [r] }

/-- All recordings of a series. -/
def all (p : Passage T) : List (Recording T) :=
  p.reported.flatten ++ p.drained ++ p.waiting ++ p.taken

/-- What collections drained, the one under way included. -/
def collected (p : Passage T) : List (Recording T) := p.reported.flatten ++ p.drained

/-- What no recorder drained. -/
def untaken (p : Passage T) : List (Recording T) := p.collected ++ p.waiting

/-- What the collection under way reports at its end, collection by collection. -/
def told (p : Passage T) : Temporality → List (List (Recording T))
  | .delta => [p.drained]
  | .cumulative => p.reported ++ [p.drained]

/-- Draining loses no recording. -/
@[simp] theorem all_drain (p : Passage T) : p.drain.all = p.all := by simp [drain, all]

/-- Ending a collection loses no recording. -/
@[simp] theorem all_close (p : Passage T) : p.close.all = p.all := by simp [close, all]

/-- What a recorder drains changes its place among all recordings. -/
theorem all_take_perm (p : Passage T) : p.take.all.Perm p.all := by
  simp only [take, all, List.append_nil, List.append_assoc]
  exact (List.perm_append_comm.append_left _).append_left _

/-- One more recording is one more among all. -/
theorem all_add_perm (p : Passage T) (r : Recording T) : (p.add r).all.Perm (p.all ++ [r]) := by
  simp only [add, all, List.append_assoc]
  exact ((List.perm_append_comm.append_left _).append_left _).append_left _

/-- After a drain, collections drained all that no recorder did. -/
@[simp] theorem collected_drain (p : Passage T) : p.drain.collected = p.untaken := by
  simp [drain, collected, untaken]

/-- Ending a collection does not change what collections drained. -/
@[simp] theorem collected_close (p : Passage T) : p.close.collected = p.collected := by
  simp [close, collected]

/-- Draining takes nothing from collections that would have been theirs. -/
@[simp] theorem untaken_drain (p : Passage T) : p.drain.untaken = p.untaken := by
  simp [drain, collected, untaken]

/-- Ending a collection does not change what no recorder drained. -/
@[simp] theorem untaken_close (p : Passage T) : p.close.untaken = p.untaken := by
  simp [close, collected, untaken]

/-- A recording that waits is one that no recorder drained. -/
@[simp] theorem untaken_add (p : Passage T) (r : Recording T) :
    (p.add r).untaken = p.untaken ++ [r] := by
  simp [add, collected, untaken]

/-- Before a collection drains the series, only earlier ones did. -/
theorem collected_of_drained_nil {p : Passage T} (h : p.drained = []) :
    p.collected = p.reported.flatten := by
  rw [collected, h, List.append_nil]

/-- If nothing waits, then collections drained all that no recorder did. -/
theorem untaken_of_waiting_nil {p : Passage T} (h : p.waiting = []) : p.untaken = p.collected := by
  rw [untaken, h, List.append_nil]

/-- The first drain of a collection takes what waits. -/
theorem drained_drain {p : Passage T} (h : p.drained = []) : p.drain.drained = p.waiting := by
  rw [drain, h, List.nil_append]

/-- If nothing waits, there is nothing to be drained. -/
theorem drain_of_waiting_nil {p : Passage T} (h : p.waiting = []) : p.drain = p := by
  obtain ⟨reported, drained, waiting, taken⟩ := p
  subst h
  simp [drain]

/-- What a collection found, it tells. -/
theorem told_ne_nil {p : Passage T} (h : p.drained ≠ []) (temporality : Temporality) :
    (p.told temporality).flatten ≠ [] := by
  cases temporality <;> simp [told, h]

/-- Without recordings, no part of a passage has any. -/
theorem of_all_nil {p : Passage T} (h : p.all = []) :
    p.reported.flatten = [] ∧ p.drained = [] ∧ p.waiting = [] ∧ p.taken = [] := by
  simpa only [all, List.append_eq_nil_iff, and_assoc] using h

end Passage

/-! ## What recorders do -/

/-- One step of a recorder. Acquiring may be answered by the look for a live series that comes first,
which is the same step (`Collector.acquire_of_acquire?`). -/
inductive Move (T : Type) where
  | acquire (set : AttributeSet)
  | fold (id : Nat) (r : Recording T)
  /-- Take what waits in a series, for oneself. -/
  | drain (id : Nat) (point : AttributeSet)
  | release (id : Nat)

namespace Move

/-- The set that a recorder looks for equals itself. -/
def IsReflexive : Move T → Prop
  | .acquire set => (set == set) = true
  | .fold _ _ | .drain _ _ | .release _ => True

instance : (move : Move T) → Decidable move.IsReflexive
  | .acquire set => inferInstanceAs (Decidable ((set == set) = true))
  | .fold _ _ | .drain _ _ | .release _ => inferInstanceAs (Decidable True)

/-- The series that a recorder needs to have in hand. -/
def series? : Move T → Option Nat
  | .fold id _ | .drain id _ | .release id => some id
  | .acquire _ => none

/-- What a move folds into a series. -/
def folded (id : Nat) : Move T → List (Recording T)
  | .fold id' r => if id' = id then [r] else []
  | .acquire _ | .drain _ _ | .release _ => []

end Move

/-- Note what a move does. -/
def Journal.move (j : Journal T) : Move T → Journal T
  | .fold id r => Function.update j id ((j id).add r)
  | .drain id _ => Function.update j id (j id).take
  | .acquire _ | .release _ => j

/-- Note that what waits in one series is drained. -/
def Journal.drain (j : Journal T) (id : Nat) : Journal T := Function.update j id (j id).drain

/-- A drain is noted for the series that is drained. -/
theorem Journal.drain_self (j : Journal T) (id : Nat) : j.drain id id = (j id).drain :=
  Function.update_self ..

/-- Nothing is noted for the other series. -/
theorem Journal.drain_of_ne (j : Journal T) {id other : Nat} (h : other ≠ id) :
    j.drain id other = j other :=
  Function.update_of_ne h ..

/-- What earlier collections drained is not changed by a drain. -/
@[simp] theorem Journal.reported_drain (j : Journal T) (id other : Nat) :
    (j.drain id other).reported = (j other).reported := by
  simp only [drain, Function.update_apply]
  split <;> simp_all [Passage.drain]

/-- Recorders do not change what earlier collections drained. -/
@[simp] theorem Journal.reported_move (j : Journal T) (move : Move T) (id : Nat) :
    (j.move move id).reported = (j id).reported := by
  cases move <;> simp only [move, Function.update_apply] <;> split <;>
    simp_all [Passage.add, Passage.take]

/-- Recorders do not change what the collection under way drained. -/
@[simp] theorem Journal.drained_move (j : Journal T) (move : Move T) (id : Nat) :
    (j.move move id).drained = (j id).drained := by
  cases move <;> simp only [move, Function.update_apply] <;> split <;>
    simp_all [Passage.add, Passage.take]

/-- Recorders do not change what collections drained. -/
theorem Journal.collected_move (j : Journal T) (move : Move T) (id : Nat) :
    (j.move move id).collected = (j id).collected := by
  rw [Passage.collected, j.reported_move, j.drained_move]
  rfl

end Metering
