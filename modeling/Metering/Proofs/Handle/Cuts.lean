import Metering.Proofs.Handle

/-!
# Stretches cut into cycles

However a stretch of recordings is cut into cycles, merging what the cycles yield gives the numbers of
the whole stretch (`Handle.cuts_add_up_to_the_whole`). Recording and merging are folds of their own,
with seeds and comparisons of their own; that they fit together is said of two tallies by
`Kind.merge_tallyOf`, and carried along the cuts by `Accumulation.joinAll_tally`.
-/

namespace Metering

open Quantity

variable {T : Type} {k : Kind} [Quantity T]

namespace Accumulation

/-- Joining accumulations is merging them into the first. -/
theorem joinAll_cons (first : Accumulation T k) (rest : List (Accumulation T k)) :
    joinAll (first :: rest) = some (rest.foldl merge first) := by
  induction rest using List.reverseRecOn with
  | nil => rfl
  | append_singleton rest a ih =>
    rw [← List.cons_append, joinAll_concat, ih, List.foldl_concat]
    rfl

/-- Accumulations of the cycles of a stretch, one for each, merge from left to right to the one of the
whole stretch. Sums of words are the same; of other numbers the sum is that of the cycles' sums, and
all else is the same. -/
def AddUpTo (as : List (Accumulation T k)) (cs : List (List (Recording T)))
    (whole : Accumulation T k) : Prop :=
  as.length = cs.length ∧ ∃ first rest, as = first :: rest ∧
    (rest.foldl merge first).tally = k.withSum whole.tally (totalByCycle cs) ∧
    (Modular T → (rest.foldl merge first).tally = whole.tally)

/-- Tallies that were taken of cycles of recordings add up. -/
theorem addUpTo_of_tallies [Ranked T] {as : List (Accumulation T k)}
    {cs : List (List (Recording T))} {whole : Accumulation T k} (hcs : cs ≠ [])
    (hne : ∀ rs ∈ cs, rs ≠ []) (htimes : k = .lastValue → cs.flatten.Pairwise (·.time < ·.time))
    (has : as.map (·.tally) = cs.map k.tallyOf) (hwhole : whole.tally = k.tallyOf cs.flatten) :
    AddUpTo as cs whole := by
  have hlength : as.length = cs.length := by simpa using congrArg List.length has
  have hjoin := joinAll_tally has hne htimes
  rw [if_neg hcs, ← hwhole] at hjoin
  cases as with
  | nil => cases hjoin
  | cons first rest =>
    rw [joinAll_cons] at hjoin
    have htally : (rest.foldl merge first).tally = k.withSum whole.tally (totalByCycle cs) :=
      Option.some.inj hjoin
    refine ⟨hlength, first, rest, rfl, htally, fun _ => ?_⟩
    rw [htally, totalByCycle_eq_total, hwhole, k.withSum_total]

end Accumulation

namespace Handle

/-- What new handles yield, one for each cycle of recordings. -/
def yields (k : Kind) (sampling : SamplingPlan T) (point : AttributeSet)
    (cs : List (List (Recording T))) : List (Accumulation T k) :=
  cs.filterMap fun rs => (((fresh k sampling).recordAll rs).drain point).1

theorem tallies_yields (k : Kind) (sampling : SamplingPlan T) (point : AttributeSet)
    {cs : List (List (Recording T))} (hne : ∀ rs ∈ cs, rs ≠ []) :
    (yields k sampling point cs).map (·.tally) = cs.map k.tallyOf := by
  have hdrain : ∀ rs ∈ cs, (((fresh k sampling).recordAll rs).drain point).1.map (·.tally) =
      some (k.tallyOf rs) := fun rs hrs =>
    ((rested_fresh k sampling).drain_tally point rs).trans (if_neg (hne rs hrs))
  rw [yields, List.map_filterMap, List.filterMap_congr hdrain, List.filterMap_eq_map']

/-- **Cuts anywhere.** Cut a stretch of recordings into cycles with recordings in each. What one handle
yields that is drained at every cut, and what new handles yield that each take in one cycle, merge to
what a new handle yields that takes in the whole stretch. The latest value needs times that increase. -/
theorem cuts_add_up_to_the_whole [Ranked T] (k : Kind) (sampling : SamplingPlan T)
    (point : AttributeSet) {cs : List (List (Recording T))} (hcs : cs ≠ [])
    (hne : ∀ rs ∈ cs, rs ≠ [])
    (htimes : k = .lastValue → cs.flatten.Pairwise (·.time < ·.time)) :
    ∃ whole, (((fresh k sampling).recordAll cs.flatten).drain point).1 = some whole ∧
      Accumulation.AddUpTo ((fresh k sampling).replay point cs).1 cs whole ∧
      Accumulation.AddUpTo (yields k sampling point cs) cs whole := by
  have hrested := rested_fresh k sampling
  have hflatten : cs.flatten ≠ [] := by
    obtain ⟨rs, rest, rfl⟩ := List.exists_cons_of_ne_nil hcs
    have hrs := hne rs List.mem_cons_self
    simp [hrs]
  obtain ⟨whole, hdrain, hwhole⟩ := hrested.drain_eq_some point hflatten
  have hreplay := hrested.replay_tallies point cs
  have hall : cs.filter (!·.isEmpty) = cs :=
    List.filter_eq_self.2 fun rs hrs => by simp [hne rs hrs]
  rw [hall] at hreplay
  exact ⟨whole, hdrain, Accumulation.addUpTo_of_tallies hcs hne htimes hreplay hwhole,
    Accumulation.addUpTo_of_tallies hcs hne htimes (tallies_yields k sampling point hne) hwhole⟩

/-- Cycles with a NaN and a zero, of either sign, at increasing times. -/
def zeroCycles : List (List (Recording Binary64)) :=
  [[{ value := .nan, time := 1 }, { value := .ofMagnitude true 0, time := 2 }],
    [{ value := .zero, time := 3 }], [{ value := .nan, time := 4 }]]

/-- The first zero stays the minimum and the maximum, with its sign, and the last NaN the latest
value. -/
theorem cuts_add_up_to_the_whole_at_zeros :
    zeroCycles ≠ [] ∧ (∀ rs ∈ zeroCycles, rs ≠ []) ∧
    zeroCycles.flatten.Pairwise (·.time < ·.time) ∧
    (∃ whole, (((fresh .minMaxSumCount .none).recordAll zeroCycles.flatten).drain .blank).1 =
        some whole ∧
      Accumulation.AddUpTo ((fresh .minMaxSumCount .none).replay .blank zeroCycles).1 zeroCycles
        whole ∧
      Spread.min whole.tally = .ofMagnitude true 0 ∧ Spread.max whole.tally = .ofMagnitude true 0) ∧
    ∃ whole, (((fresh .lastValue .none).recordAll zeroCycles.flatten).drain .blank).1 =
        some whole ∧
      Accumulation.AddUpTo (yields .lastValue .none .blank zeroCycles) zeroCycles whole ∧
      Latest.value whole.tally = .nan := by
  have hcs : zeroCycles ≠ [] := List.cons_ne_nil _ _
  have hne : ∀ rs ∈ zeroCycles, rs ≠ [] := by decide
  have htimes : zeroCycles.flatten.Pairwise (·.time < ·.time) := by decide
  obtain ⟨spread, hspread, hreplay, -⟩ :=
    cuts_add_up_to_the_whole .minMaxSumCount .none .blank hcs hne nofun
  obtain ⟨latest, hlatest, -, hyields⟩ :=
    cuts_add_up_to_the_whole .lastValue .none .blank hcs hne fun _ => htimes
  have hends : (((fresh .minMaxSumCount .none).recordAll zeroCycles.flatten).drain .blank).1.map
      (fun a : Accumulation Binary64 .minMaxSumCount =>
        (Spread.min a.tally, Spread.max a.tally)) =
      some (.ofMagnitude true 0, .ofMagnitude true 0) := by
    decide +kernel
  have hvalue : (((fresh .lastValue .none).recordAll zeroCycles.flatten).drain .blank).1.map
      (fun a : Accumulation Binary64 .lastValue => Latest.value a.tally) = some .nan := by
    decide +kernel
  rw [hspread, Option.map_some, Option.some_inj, Prod.mk.injEq] at hends
  rw [hlatest, Option.map_some, Option.some_inj] at hvalue
  exact ⟨hcs, hne, htimes, ⟨spread, hspread, hreplay, hends⟩, latest, hlatest, hyields, hvalue⟩

end Handle

end Metering
