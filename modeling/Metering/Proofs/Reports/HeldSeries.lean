import Metering.Proofs.Collector.Standing
import Metering.Proofs.Interleaving.Run

/-!
# Held series

A series in hand is never orphaned. However many collections find it idle and evict others around it,
it stands for its set until it is released, so there is no second series of the set, and what is folded
into it is in the report of the next collection. All of this hangs on one count of holders, which
evictions go by (`Collector.InHands`).

The runs are those of a shared collector, where recorders come between the steps of a collection. Runs
of whole commands are among them (`Shared.exists_steps_of_run`).
-/

namespace Metering

variable {T : Type} {k : Kind} [Quantity T]

namespace Shared

variable {s s' s₀ : Shared T k} {j j' j₀ : Journal T}

/-! ## Over a run -/

/-- No step brings a name back or gives an identity twice. -/
theorem precedes_step? {step : Step T} (h : s.step? step = some s') :
    s.collector.Precedes s'.collector := by
  cases step with
  | recorder move =>
    obtain ⟨-, rfl⟩ := move_of_step? h
    exact (s.collector.grows_move move).toPrecedes
  | snapshot start time =>
    obtain ⟨-, rfl⟩ := snapshot_of_step? h
    exact (Collector.Precedes.refl s.collector).of_names_eq rfl rfl
  | drain id =>
    obtain ⟨cycle, -, -, rfl⟩ := drain_of_step? h
    exact (s.collector.thins_drainSeries _ id).precedes
  | evict =>
    obtain ⟨cycle, -, -, rfl⟩ := evict_of_step? h
    exact (s.collector.thins_evictIdle cycle).precedes
  | finish =>
    obtain ⟨cycle, -, rfl⟩ := finish_of_step? h
    exact (s.collector.thins_finish cycle).precedes

theorem precedes_run? {steps : List (Step T)} (hrun : s.run? j steps = some (s', j')) :
    s.collector.Precedes s'.collector :=
  run?_preserves (P := fun after _ => s.collector.Precedes after.collector)
    (fun hprecedes hstep _ => hprecedes.trans (precedes_step? hstep)) (.refl s.collector) hrun
    fun _ _ => trivial

/-- Until the next snapshot, a reader that rests goes on to rest, and nothing is collected. -/
theorem rests_run {steps : List (Step T)} (hrun : s.run? j steps = some (s', j'))
    (hstage : s.stage = .resting) (hsnapshot : ∀ start time, .snapshot start time ∉ steps) :
    s'.stage = .resting ∧ ∀ id, (j' id).reported = (j id).reported := by
  refine run?_preserves
    (P := fun after j' => after.stage = .resting ∧ ∀ id, (j' id).reported = (j id).reported)
    (Q := fun step => ∀ start time, step ≠ .snapshot start time)
    (fun {before after j'} step h hstep hsort => ?_) ⟨hstage, fun _ => rfl⟩ hrun
    fun step hmem start time heq => hsnapshot start time (heq ▸ hmem)
  obtain ⟨hrests, hreported⟩ := h
  cases step with
  | recorder move =>
    obtain ⟨-, rfl⟩ := move_of_step? hstep
    exact ⟨hrests, fun id => (j'.reported_move move id).trans (hreported id)⟩
  | snapshot start time => exact absurd rfl (hsort start time)
  | drain other => simp [step?, hrests] at hstep
  | evict => simp [step?, hrests] at hstep
  | finish => simp [step?, hrests] at hstep

namespace InOrder

/-- A series that was found under the set that it was acquired for stands for the set as long as it is
in hand. -/
theorem standsFor (h₀ : s₀.InOrder j₀) {set : AttributeSet} {since : List (Step T)}
    (hrun : s₀.run? j₀ (.recorder (.acquire set) :: since) = some (s, j))
    (hreflexive : ∀ step ∈ .recorder (.acquire set) :: since, step.IsReflexive)
    {id : Nat} {c : Collector T k} (hacquire : s₀.collector.acquire set = (id, c))
    (hstored : (c.find? set).map (·.id) = some id) (hhands : 0 < s.hands id) :
    s.collector.StandsFor id set := by
  have horder : s.InOrder j := h₀.run hrun hreflexive
  obtain ⟨after, hstep, hsince⟩ := run?_cons.1 hrun
  have hafter : after.collector.Distinct :=
    (h₀.step hstep (hreflexive _ List.mem_cons_self)).sound.toDistinct
  have hc : after.collector = c := by
    obtain ⟨-, rfl⟩ := move_of_step? hstep
    exact congrArg Prod.snd hacquire
  exact hafter.standsFor_of_precedes (precedes_run? hsince) horder.sound.toDistinct (hc ▸ hstored)
    (horder.inHands.live id hhands)

/-- What is folded into a series is reported by the end of the next collection, unless somebody takes
it: by that collection itself, if none was under way at the time. -/
theorem reports_fold (h₀ : s₀.InOrder j₀) {id : Nat} {r : Recording T} {mid during : List (Step T)}
    {start time : Time} {cycle : Cycle T k}
    (hrun : s₀.run? j₀ (.recorder (.fold id r) :: (mid ++ .snapshot start time :: during)) =
      some (s, j))
    (hreflexive : ∀ step ∈ mid ++ .snapshot start time :: during, step.IsReflexive)
    (htakes : ∀ step ∈ mid ++ during, step.takes id = false) (hfinish : .finish ∉ during)
    (hstage : s.stage = .evicted cycle) :
    (j₀ id).untaken ++ [r] <+: (j id).collected ∧
      (s₀.stage = .resting → (∀ start time, .snapshot start time ∉ mid) →
        (j₀ id).waiting ++ [r] <+: (j id).drained) ∧
      ((j id).drained ≠ [] → ∃ n ∈ s₀.collector.names, n.1 = id ∧
        ∃ p ∈ (s.collector.finish cycle).1.elim [] (·.points), p.attributes = n.2.toList ∧
          (k.mergedTally? ((j id).told s.collector.config.temporality)).map k.read =
            some p.reading) := by
  let first : List (Step T) := .recorder (.fold id r) :: mid
  have hfirst : s₀.run? j₀ (first ++ .snapshot start time :: during) = some (s, j) := hrun
  obtain ⟨s₁, j₁, hmid, hcollect⟩ := exists_of_run?_append hfirst
  obtain ⟨folded, hfold, hlater⟩ := run?_cons.1 hmid
  obtain ⟨begun, hsnapshot, -⟩ := run?_cons.1 hcollect
  have hrested : s₁.Rested j₁ := by
    have horder : s₁.InOrder j₁ := (h₀.step hfold trivial).run hlater fun step hstep =>
      hreflexive step (List.mem_append_left _ hstep)
    exact horder.rested hsnapshot
  have hcollecting : s₁.collector.Collecting j₁ s.collector cycle j :=
    (hrested.underWay_run hcollect (fun step hstep => hreflexive step
      (List.mem_append_right _ (List.mem_cons_of_mem _ hstep))) hfinish).collecting hstage
  have hcollected : (j₀ id).untaken ++ [r] <+: (j id).collected :=
    (untaken_prefix_fold hmid fun step hstep => htakes step (List.mem_append_left _ hstep)).trans
      (hrested.untaken_prefix_collected hcollect (fun step hstep =>
        htakes step (List.mem_append_right _ hstep)) hstage)
  refine ⟨hcollected, fun hrests hsnapshots => ?_, fun hdrained => ?_⟩
  · have hreported : (j id).reported = (j₀ id).reported := by
      refine (hcollecting.reported id).trans ((rests_run hmid hrests fun start time hmem => ?_).2 id)
      rcases List.mem_cons.1 hmem with heq | hmem
      · cases heq
      · exact hsnapshots start time hmem
    have hnone : (j₀ id).drained = [] := (h₀.rested_of_resting hrests).drained id
    rw [Passage.untaken, Passage.collected, Passage.collected, hreported, hnone, List.append_nil,
      List.append_assoc] at hcollected
    exact (List.prefix_append_right_inj _).1 hcollected
  · -- the series was in hand when the recording was folded in, so its name is an old one
    obtain ⟨n, hn, hid, hpoint⟩ := hcollecting.exists_point hdrained
    obtain ⟨t, ht, htid⟩ := h₀.inHands.live id ((move_of_step? hfold).1 id rfl)
    have hlt : n.1 < s₀.collector.nextId := hid.trans htid.symm ▸ h₀.sound.id_lt ht
    have hname : n ∈ s₀.collector.names :=
      ((precedes_run? hmid).names n hn).resolve_right (Nat.not_le_of_lt hlt)
    exact ⟨n, hname, hid, hpoint⟩

end InOrder

/-- **Held series.** Take any steps of recorders and of the reader, where recorders look only for sets
that equal themselves.

If a series was found under the set that it was acquired for, and somebody still has it in hand, then it
stands for the set: it is the series under the set, all who look for a set that equals it get that
series, and others do not, unless it is the overflow series and there is no room for their sets.

Take a recording that was folded into a series in hand, and a collection that began later and is about
to report. Unless somebody drained the series for themselves since then, collections have by now drained
all that was folded into the series up to the recording and that nobody took. If no collection was under
way when the recording came, and none began before this one, then it is this one that drained it. The
collection has a point for each series that it drained anything from, with the attributes that the
series had all along, and with the numbers of what it drained from it or, cumulatively, of what each
collection ever drained from it. -/
theorem held_series_are_found_and_reported (sampling : SamplingPlan T) (stream : Stream)
    (config : ReaderConfig) {steps : List (Step T)} {s : Shared T k} {j : Journal T}
    (hrun : (new sampling stream config : Shared T k).run? (fun _ => {}) steps = some (s, j))
    (hreflexive : ∀ step ∈ steps, step.IsReflexive) :
    (∀ before set since, steps = before ++ .recorder (.acquire set) :: since →
      ∃ s₀ j₀, (new sampling stream config : Shared T k).run? (fun _ => {}) before = some (s₀, j₀) ∧
        ∀ id c, s₀.collector.acquire set = (id, c) → (c.find? set).map (·.id) = some id →
          0 < s.hands id → s.collector.StandsFor id set) ∧
      ∀ before id r mid start time during cycle,
        steps = before ++ .recorder (.fold id r) :: (mid ++ .snapshot start time :: during) →
        (∀ step ∈ mid ++ during, step.takes id = false) → .finish ∉ during →
        s.stage = .evicted cycle →
        ∃ s₀ j₀, (new sampling stream config : Shared T k).run? (fun _ => {}) before = some (s₀, j₀) ∧
          (j₀ id).untaken ++ [r] <+: (j id).collected ∧
          (s₀.stage = .resting → (∀ start time, .snapshot start time ∉ mid) →
            (j₀ id).waiting ++ [r] <+: (j id).drained) ∧
          ((j id).drained ≠ [] → ∃ n ∈ s₀.collector.names, n.1 = id ∧
            ∃ p ∈ (s.collector.finish cycle).1.elim [] (·.points), p.attributes = n.2.toList ∧
              (k.mergedTally? ((j id).told config.temporality)).map k.read = some p.reading) := by
  have hnew : (new sampling stream config : Shared T k).InOrder fun _ => {} :=
    .inl (rested_new sampling stream config)
  have hconfig : s.collector.config = config :=
    congrArg Collector.Settings.config (settings_run? hrun)
  refine ⟨fun before set since hsteps => ?_,
    fun before id r mid start time during cycle hsteps htakes hfinish hstage => ?_⟩
  all_goals
    subst hsteps
    obtain ⟨s₀, j₀, hbefore, hrest⟩ := exists_of_run?_append hrun
    have h₀ : s₀.InOrder j₀ := hnew.run hbefore fun step hstep =>
      hreflexive step (List.mem_append_left _ hstep)
    refine ⟨s₀, j₀, hbefore, ?_⟩
  · exact fun id c => h₀.standsFor hrest fun step hstep =>
      hreflexive step (List.mem_append_right _ hstep)
  · rw [← hconfig]
    exact h₀.reports_fold hrest (fun step hstep =>
      hreflexive step (List.mem_append_right _ (List.mem_cons_of_mem _ hstep))) htakes hfinish hstage

/-- One series at most is tracked, and evicted after one idle cycle. -/
def heldConfig : ReaderConfig := { ReaderConfig.evicting with limit := 1, limit_pos := Nat.one_pos }

/-- The overflow series is held from before the first collection on, and recorded into. The second
collection finds it idle and evicts the series of `a = 1` beside it. After that one of `b = 1` takes the
room, so a recording for `a = 1` comes to the held series, before the third collection. -/
def heldSteps : List (Step UInt64) :=
  [.recorder (.acquire (.ofList [⟨"a", .int 1⟩])),
    .recorder (.fold 0 { value := 5 }),
    .recorder (.release 0),
    .recorder (.acquire .overflow),
    .recorder (.fold 1 { value := 4 }),
    .snapshot 0 1, .drain 0, .drain 1, .evict, .finish,
    .snapshot 0 2, .drain 1, .drain 0, .evict, .finish,
    .recorder (.acquire (.ofList [⟨"b", .int 1⟩])),
    .recorder (.acquire (.ofList [⟨"a", .int 1⟩])),
    .recorder (.fold 1 { value := 7 }),
    .recorder (.release 1),
    .snapshot 0 3, .drain 2, .drain 1, .evict]

theorem held_series_are_found_and_reported_around_evictions :
    ∃ (s : Shared UInt64 (.sum true)) (j : Journal UInt64) (cycle : Cycle UInt64 (.sum true)),
      (new .none default heldConfig).run? (fun _ => {}) heldSteps = some (s, j) ∧
        (∀ step ∈ heldSteps, step.IsReflexive) ∧
        s.stage = .evicted cycle ∧
        s.collector.names.map (·.1) = [1, 2] ∧
        s.collector.StandsFor 1 .overflow ∧
        (j 1).drained.map (·.value) = [7] ∧
        ∃ p ∈ (s.collector.finish cycle).1.elim [] (·.points), p.reading = ⟨11⟩ := by
  let begun : Shared UInt64 (.sum true) := new .none default heldConfig
  have hreflexive : ∀ step ∈ heldSteps, step.IsReflexive := by decide +kernel
  -- the run, with what is to be read off its end
  have hend : (begun.run? (fun _ => {}) heldSteps).map (fun r =>
      ((r.1.step? .finish).isSome, r.1.collector.names.map (·.1), r.1.hands 1,
        (r.2 1).drained.map (·.value),
        ((Kind.sum true).mergedTally? ((r.2 1).told .cumulative)).map Total.value)) =
      some (true, [1, 2], 1, [7], some 11) := by
    decide +kernel
  obtain ⟨⟨s, j⟩, hrun, hsummary⟩ := Option.map_eq_some_iff.1 hend
  simp only [Prod.mk.injEq] at hsummary
  obtain ⟨hfinish, hnames, hhands, hdrained, htold⟩ := hsummary
  obtain ⟨after, hafter⟩ := Option.isSome_iff_exists.1 hfinish
  obtain ⟨cycle, hstage, -⟩ := finish_of_step? hafter
  obtain ⟨hholds, hfolds⟩ :=
    held_series_are_found_and_reported (k := .sum true) .none default heldConfig hrun hreflexive
  obtain ⟨s₀, j₀, hbefore, hstands⟩ := hholds (heldSteps.take 3) .overflow (heldSteps.drop 4) rfl
  have hacquired : (begun.run? (fun _ => {}) (heldSteps.take 3)).map (fun r =>
      ((r.1.collector.acquire .overflow).1,
        ((r.1.collector.acquire .overflow).2.find? .overflow).map (·.id))) = some (1, some 1) := by
    decide +kernel
  rw [hbefore, Option.map_some, Option.some_inj, Prod.mk.injEq] at hacquired
  obtain ⟨hid, hstored⟩ := hacquired
  have hstands : s.collector.StandsFor 1 .overflow :=
    hstands 1 _ (Prod.ext hid rfl) hstored (by rw [hhands]; exact Nat.one_pos)
  obtain ⟨s₁, j₁, -, -, -, hpoint⟩ := hfolds (heldSteps.take 17) 1 { value := 7 }
    [.recorder (.release 1)] 0 3 [.drain 2, .drain 1, .evict] cycle rfl (by decide) (by simp) hstage
  have hsome : (j 1).drained ≠ [] := by
    intro hnil
    rw [hnil] at hdrained
    cases hdrained
  obtain ⟨n, -, -, p, hp, -, hreading⟩ := hpoint hsome
  obtain ⟨total, htotal, htotalp⟩ := Option.map_eq_some_iff.1 hreading
  rw [show (Kind.sum true).mergedTally? ((j 1).told .cumulative) = some total from htotal,
    Option.map_some, Option.some_inj] at htold
  refine ⟨s, j, cycle, hrun, hreflexive, hstage, hnames, hstands, hdrained, p, hp, ?_⟩
  exact htotalp.symm.trans (congrArg Total.mk htold)

end Shared

end Metering
