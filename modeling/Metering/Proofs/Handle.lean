import Metering.Handle
import Metering.Proofs.Tally

/-!
# Handles over many cycles

A handle on its own, through cycles of recordings that each end in a drain (`Handle.replay`): what
every drain finds, and that it leaves the handle `Rested`, as new but for what its sampler may have
drawn from.
-/

namespace Metering

variable {T : Type} {k : Kind} [Quantity T]

namespace Handle

/-- Take in recordings one after another. -/
def recordAll (h : Handle T k) (rs : List (Recording T)) : Handle T k := rs.foldl record h

/-- Go through cycles of recordings with a drain at the end of each. The answer has what the drains
found, as far as they found anything, and the handle as it goes on. -/
def replay (h : Handle T k) (point : AttributeSet) :
    List (List (Recording T)) → List (Accumulation T k) × Handle T k
  | [] => ([], h)
  | rs :: rest =>
    let drained := (h.recordAll rs).drain point
    let after := drained.2.replay point rest
    (drained.1.toList ++ after.1, after.2)

/-- Nothing has been recorded, and the tally is that of nothing. -/
structure Rested (h : Handle T k) : Prop where
  recorded : h.recorded = false
  tally : h.tally = k.fresh

/-- A fresh handle is rested. -/
theorem rested_fresh (k : Kind) (sampling : SamplingPlan T) : (fresh k sampling).Rested := ⟨rfl, rfl⟩

/-! ## One cycle -/

/-- The last recording is taken in last. -/
theorem recordAll_concat (h : Handle T k) (rs : List (Recording T)) (r : Recording T) :
    h.recordAll (rs ++ [r]) = (h.recordAll rs).record r :=
  List.foldl_append

/-- A handle was recorded into if it was before or takes in any recording. -/
theorem recordAll_recorded (h : Handle T k) (rs : List (Recording T)) :
    (h.recordAll rs).recorded = (h.recorded || !rs.isEmpty) := by
  induction rs generalizing h with
  | nil => simp [recordAll]
  | cons r rest ih =>
    refine (ih (h.record r)).trans ?_
    simp [record]

/-- The tally takes in the recordings as the handle does. -/
theorem recordAll_tally (h : Handle T k) (rs : List (Recording T)) :
    (h.recordAll rs).tally = k.recordAll h.tally rs := by
  induction rs generalizing h with
  | nil => rfl
  | cons r rest ih => exact ih (h.record r)

/-- A handle without recordings yields nothing, and stays as it is. -/
theorem drain_of_not_recorded {h : Handle T k} (hrec : h.recorded = false) (point : AttributeSet) :
    h.drain point = (none, h) := by
  simp [drain, hrec]

/-- What is left to find after a drain is nothing. -/
theorem recorded_drain (h : Handle T k) (point : AttributeSet) :
    (h.drain point).2.recorded = false := by
  unfold drain
  split
  · rfl
  · rename_i hrec
    exact Bool.not_eq_true _ ▸ hrec

/-- A handle with recordings yields its tally. -/
theorem drain_tally (h : Handle T k) (point : AttributeSet) :
    (h.drain point).1.map (·.tally) = if h.recorded then some h.tally else none := by
  unfold drain
  split <;> rfl

namespace Rested

variable {h : Handle T k}

/-- A rested handle yields the tally of the recordings it took in, or nothing if it took in none. -/
theorem drain_tally (hh : h.Rested) (point : AttributeSet) (rs : List (Recording T)) :
    ((h.recordAll rs).drain point).1.map (·.tally) =
      if rs = [] then none else some (k.tallyOf rs) := by
  rw [Handle.drain_tally, recordAll_recorded, recordAll_tally, hh.recorded, hh.tally]
  cases rs <;> rfl

/-- Whether a cycle finds anything. -/
theorem drain_eq_none (hh : h.Rested) (point : AttributeSet) {rs : List (Recording T)} :
    ((h.recordAll rs).drain point).1 = none ↔ rs = [] := by
  have htally := hh.drain_tally point rs
  by_cases hrs : rs = []
  · rw [if_pos hrs, Option.map_eq_none_iff] at htally
    exact iff_of_true htally hrs
  · rw [if_neg hrs] at htally
    exact iff_of_false (fun hnone => by rw [hnone] at htally; cases htally) hrs

/-- A cycle with recordings finds them. -/
theorem drain_eq_some (hh : h.Rested) (point : AttributeSet) {rs : List (Recording T)}
    (hrs : rs ≠ []) : ∃ a, ((h.recordAll rs).drain point).1 = some a ∧ a.tally = k.tallyOf rs := by
  have htally := hh.drain_tally point rs
  rw [if_neg hrs] at htally
  exact Option.map_eq_some_iff.1 htally

/-- A cycle leaves a rested handle rested. -/
theorem drain (hh : h.Rested) (point : AttributeSet) (rs : List (Recording T)) :
    ((h.recordAll rs).drain point).2.Rested := by
  refine ⟨recorded_drain _ point, ?_⟩
  cases rs with
  | nil => rw [recordAll, List.foldl_nil, drain_of_not_recorded hh.recorded]; exact hh.tally
  | cons r rest =>
    have hrec : (h.recordAll (r :: rest)).recorded = true := by simp [recordAll_recorded]
    simp [Handle.drain, hrec]

end Rested

/-! ## What a handle holds -/

/-- The handle is one that was rested and took in these recordings. -/
def Holds (h : Handle T k) (rs : List (Recording T)) : Prop :=
  ∃ rested : Handle T k, rested.Rested ∧ h = rested.recordAll rs

/-- A fresh handle holds no recordings. -/
theorem holds_fresh (k : Kind) (sampling : SamplingPlan T) : (fresh k sampling).Holds [] :=
  ⟨_, rested_fresh k sampling, rfl⟩

namespace Holds

variable {h : Handle T k} {rs : List (Recording T)}

/-- A recording adds one to those that a handle holds. -/
theorem record (hh : h.Holds rs) (r : Recording T) : (h.record r).Holds (rs ++ [r]) := by
  obtain ⟨rested, hrested, rfl⟩ := hh
  exact ⟨rested, hrested, (recordAll_concat rested rs r).symm⟩

/-- A drain leaves nothing. -/
theorem drain (hh : h.Holds rs) (point : AttributeSet) : (h.drain point).2.Holds [] := by
  obtain ⟨rested, hrested, rfl⟩ := hh
  exact ⟨_, hrested.drain point rs, rfl⟩

/-- A drain finds what the handle holds. -/
theorem drain_tally (hh : h.Holds rs) (point : AttributeSet) :
    (h.drain point).1.map (·.tally) = k.tally? rs := by
  obtain ⟨rested, hrested, rfl⟩ := hh
  exact hrested.drain_tally point rs

end Holds

/-! ## Many cycles -/

/-- The last cycle goes into the handle that the cycles before it leave. -/
theorem replay_concat (h : Handle T k) (point : AttributeSet) (cs : List (List (Recording T)))
    (rs : List (Recording T)) :
    h.replay point (cs ++ [rs]) =
      ((h.replay point cs).1 ++ (((h.replay point cs).2.recordAll rs).drain point).1.toList,
        (((h.replay point cs).2.recordAll rs).drain point).2) := by
  induction cs generalizing h with
  | nil => simp [replay]
  | cons c rest ih => simp [replay, ih]

namespace Rested

variable {h : Handle T k}

/-- A handle is rested again after every cycle, since each of them ends in a drain. -/
theorem replay (hh : h.Rested) (point : AttributeSet) (cs : List (List (Recording T))) :
    (h.replay point cs).2.Rested := by
  induction cs generalizing h with
  | nil => exact hh
  | cons c rest ih => exact ih (hh.drain point c)

/-- Cycles without recordings change nothing and find nothing. -/
theorem replay_of_nil (hh : h.Rested) (point : AttributeSet) {cs : List (List (Recording T))}
    (hcs : ∀ rs ∈ cs, rs = []) : h.replay point cs = ([], h) := by
  induction cs with
  | nil => rfl
  | cons c rest ih =>
    have hdrain : (h.recordAll c).drain point = (none, h) := by
      rw [hcs c List.mem_cons_self]
      exact drain_of_not_recorded hh.recorded point
    simp only [Handle.replay, hdrain, ih fun rs hrs => hcs rs (List.mem_cons_of_mem c hrs)]
    rfl

/-- The drains find the tallies of the cycles in which anything was recorded. -/
theorem replay_tallies (hh : h.Rested) (point : AttributeSet) (cs : List (List (Recording T))) :
    (h.replay point cs).1.map (·.tally) = (cs.filter (!·.isEmpty)).map k.tallyOf := by
  induction cs generalizing h with
  | nil => rfl
  | cons c rest ih =>
    -- each cycle starts from a rested handle, so the cycles before it do not matter
    rw [Handle.replay, List.map_append, ih (hh.drain point c), List.filter_cons]
    cases c with
    | nil =>
      rw [(hh.drain_eq_none point).2 rfl]
      rfl
    | cons r rs =>
      obtain ⟨a, ha, hat⟩ := hh.drain_eq_some point (List.cons_ne_nil r rs)
      simp [ha, hat]

end Rested

end Handle

end Metering
