import Metering.Proofs.Boundaries
import Metering.Proofs.Instrument.Run

/-!
# What can be set up

Boundaries are checked one after another, each against the one before it only. Since `<` is transitive
on finite numbers, that they pass means that every one lies below all those after it
(`BoundaryFault.find?_eq_none_iff`). A histogram is asked for in three places, and they all judge its
boundaries alike (`Instrument.setup_judges`). Nothing but these, and a lack of readers, can keep an
instrument from being set up. -/

namespace Metering

/-! ## Boundaries and their faults -/

/-- Numbers that can bound buckets: finite ones, each below all those after it. -/
structure WellFormedBounds (values : List Binary64) : Prop where
  finite : ∀ b ∈ values, b.isFinite = true
  increasing : values.Pairwise fun a b => a.numLt b = true

namespace BoundaryFault

/-- The fault is what is wrong with the numbers. That they do not increase is so only of finite ones. -/
def Afflicts : BoundaryFault → List Binary64 → Prop
  | notFinite, values => ∃ b ∈ values, b.isFinite = false
  | notIncreasing, values =>
    (∀ b ∈ values, b.isFinite = true) ∧ ¬ values.Pairwise fun a b => a.numLt b = true

/-- Finite numbers of which each lies above the one before it lie above all before them. -/
theorem stalls_eq_false_iff {values : List Binary64} (hfinite : ∀ b ∈ values, b.isFinite = true) :
    stalls values = false ↔ values.Pairwise fun a b => a.numLt b = true := by
  have hnan (b : Binary64) (hb : b ∈ values) : b.isNaN = false :=
    Binary64.isNaN_of_isFinite (hfinite b hb)
  have hle (a b : Binary64) (ha : a ∈ values) (hb : b ∈ values) :
      b.numLe a = false ↔ a.rank < b.rank := by
    rw [← Bool.not_eq_true, Binary64.numLe_iff (hnan b hb) (hnan a ha)]
    exact Int.not_le
  have hlt (a b : Binary64) (ha : a ∈ values) (hb : b ∈ values) :
      a.numLt b = true ↔ a.rank < b.rank := Binary64.numLt_iff (hnan a ha) (hnan b hb)
  rw [stalls_eq_false]
  constructor
  -- neighbours increase in rank, hence any two do, as the order of ranks is transitive
  · intro hchain
    have hranks : values.IsChain fun a b => a.rank < b.rank :=
      hchain.imp_of_mem_imp fun a b ha hb hab => (hle a b ha hb).1 hab
    exact hranks.pairwise.imp_of_mem fun {a b} ha hb hab => (hlt a b ha hb).2 hab
  · intro hpairwise
    exact hpairwise.isChain.imp_of_mem_imp fun a b ha hb hab =>
      (hle a b ha hb).2 ((hlt a b ha hb).1 hab)

/-- There is no fault exactly if all boundaries are finite and increase. -/
theorem find?_eq_none_iff {values : List Binary64} :
    find? values = none ↔ WellFormedBounds values := by
  rw [find?_eq_none]
  constructor
  · rintro ⟨hfinite, hstalls⟩
    exact ⟨hfinite, (stalls_eq_false_iff hfinite).1 hstalls⟩
  · rintro ⟨hfinite, hincreasing⟩
    exact ⟨hfinite, (stalls_eq_false_iff hfinite).2 hincreasing⟩

/-- The fault that is found is the one that there is, wherever in the list it lies. -/
theorem find?_eq_some_iff {values : List Binary64} {fault : BoundaryFault} :
    find? values = some fault ↔ fault.Afflicts values := by
  have hany : (values.any fun b => !b.isFinite) = true ↔ ∃ b ∈ values, b.isFinite = false := by
    simp
  rw [find?]
  -- a value that is not finite comes first as a fault, however the others are ordered
  by_cases hnot : ∃ b ∈ values, b.isFinite = false
  · have hinfinite : ¬ ∀ b ∈ values, b.isFinite = true := by simpa using hnot
    rw [if_pos (hany.2 hnot)]
    cases fault with
    | notFinite => exact iff_of_true rfl hnot
    | notIncreasing => exact iff_of_false (by simp) fun h => hinfinite h.1
  · have hfinite : ∀ b ∈ values, b.isFinite = true := by simpa using hnot
    rw [if_neg (mt hany.1 hnot)]
    cases fault with
    | notFinite => exact iff_of_false (by split <;> simp) hnot
    | notIncreasing =>
      rw [Afflicts, and_iff_right hfinite, ← stalls_eq_false_iff hfinite]
      simp

end BoundaryFault

namespace Boundaries

variable {values : List Binary64}

/-- Values without a fault make boundaries. -/
theorem exists_ofList (h : BoundaryFault.find? values = none) :
    ∃ boundaries, ofList values = .ok boundaries := by
  unfold ofList
  split
  · exact ⟨_, rfl⟩
  · rename_i fault hfault
    cases h.symm.trans hfault

/-- Values with a fault are refused with this fault. -/
theorem ofList_of_find? {fault : BoundaryFault} (h : BoundaryFault.find? values = some fault) :
    ofList values = .error fault := by
  unfold ofList
  split
  · rename_i hnone
    cases h.symm.trans hnone
  · rename_i found hfound
    cases h.symm.trans hfound
    rfl

end Boundaries

/-! ## Judgements on boundaries -/

/-- A result that depends on boundaries: it is had if they are well formed. Otherwise it is an error
for their fault, whose wording has that of the fault in it. -/
structure Judges {α : Type} (values : List Binary64) (toError : BoundaryFault → ConfigError)
    (result : Except ConfigError α) : Prop where
  accepts_iff : (∃ a, result = .ok a) ↔ WellFormedBounds values
  rejects_iff : ∀ e, result = .error e ↔ ∃ fault : BoundaryFault, fault.Afflicts values ∧
    e = toError fault
  names : ∀ fault, ∃ before after,
    (toError fault).message = "Config error " ++ before ++ fault.message ++ after

/-- Whatever goes by the fault that is found judges boundaries. -/
theorem Judges.of_find? {α : Type} {values : List Binary64} {toError : BoundaryFault → ConfigError}
    {result : Except ConfigError α}
    (haccepts : BoundaryFault.find? values = none → ∃ a, result = .ok a)
    (hrejects : ∀ fault, BoundaryFault.find? values = some fault → result = .error (toError fault))
    (hnames : ∀ fault, ∃ before after,
      (toError fault).message = "Config error " ++ before ++ fault.message ++ after) :
    Judges values toError result := by
  simp only [BoundaryFault.find?_eq_none_iff, BoundaryFault.find?_eq_some_iff] at haccepts hrejects
  -- the values are well formed or have a fault, never both
  have hcases : WellFormedBounds values ∨ ∃ fault : BoundaryFault, fault.Afflicts values := by
    cases hfind : BoundaryFault.find? values with
    | none => exact .inl (BoundaryFault.find?_eq_none_iff.1 hfind)
    | some fault => exact .inr ⟨fault, BoundaryFault.find?_eq_some_iff.1 hfind⟩
  refine ⟨⟨?_, haccepts⟩, fun e => ⟨fun he => ?_, ?_⟩, hnames⟩
  · rintro ⟨a, rfl⟩
    refine hcases.resolve_right ?_
    rintro ⟨fault, hfault⟩
    cases hrejects fault hfault
  · obtain hwell | ⟨fault, hfault⟩ := hcases
    · obtain ⟨a, ha⟩ := haccepts hwell
      cases ha.symm.trans he
    · exact ⟨fault, hfault, Except.error.inj (he.symm.trans (hrejects fault hfault))⟩
  · rintro ⟨fault, hfault, rfl⟩
    exact hrejects fault hfault

/-- The error about boundaries has the text of the fault in its own. -/
theorem ConfigError.names_boundaries (fault : BoundaryFault) :
    ∃ before after,
      (boundaries fault).message = "Config error " ++ before ++ fault.message ++ after :=
  ⟨"", "", by rw [String.append_empty, String.append_empty]; rfl⟩

/-- The error about an aggregation has the text of the fault in its own. -/
theorem ConfigError.names_aggregation (values : List Binary64) (fault : BoundaryFault) :
    ∃ before after, (aggregation fault values).message =
      "Config error " ++ before ++ fault.message ++ after := by
  have hregroup (a b c d e f : String) :
      a ++ (b ++ c ++ d ++ e ++ f) = a ++ b ++ c ++ (d ++ e ++ f) := by
    simp only [String.append_assoc]
  exact ⟨"aggregation: explicit bucket histogram: ", _, hregroup _ _ _ ": [" _ "]"⟩

/-- The aggregator of a histogram is made exactly of well-formed boundaries. -/
theorem Kind.judges_histogramOver (values : List Binary64) (recordsExtremes : Bool) :
    Judges values .boundaries (histogramOver values recordsExtremes) := by
  refine .of_find? (fun h => ?_) (fun fault h => ?_) ConfigError.names_boundaries
  · obtain ⟨boundaries, hbounds⟩ := Boundaries.exists_ofList h
    exact ⟨_, by rw [histogramOver, hbounds]⟩
  · rw [histogramOver, Boundaries.ofList_of_find? h]

namespace Aggregation

variable {values : List Binary64}

/-- A histogram over values without a fault has a kind. -/
theorem exists_kind?_of_find? (recordsExtremes : Bool) (h : BoundaryFault.find? values = none) :
    ∃ kind, (histogram values recordsExtremes).kind? = .ok kind := by
  obtain ⟨boundaries, hbounds⟩ := Boundaries.exists_ofList h
  exact ⟨_, by rw [kind?, hbounds]⟩

/-- A histogram over values with a fault has none. -/
theorem kind?_of_find? (recordsExtremes : Bool) {fault : BoundaryFault}
    (h : BoundaryFault.find? values = some fault) :
    (histogram values recordsExtremes).kind? = .error (.aggregation fault values) := by
  rw [kind?, Boundaries.ofList_of_find? h]

/-- There is no kind of histogram over boundaries at fault, and one for all else. -/
theorem kind?_eq_error_iff {a : Aggregation} {e : ConfigError} :
    a.kind? = .error e ↔ ∃ values recordsExtremes fault, a = .histogram values recordsExtremes ∧
      fault.Afflicts values ∧ e = .aggregation fault values := by
  constructor
  · intro h
    cases a with
    | drop => cases h
    | sum monotonic => cases h
    | lastValue => cases h
    | minMaxSumCount => cases h
    | histogram values recordsExtremes =>
      cases hfind : BoundaryFault.find? values with
      | none =>
        obtain ⟨kind, hkind⟩ := exists_kind?_of_find? recordsExtremes hfind
        cases hkind.symm.trans h
      | some fault =>
        have hfault := (kind?_of_find? recordsExtremes hfind).symm.trans h
        exact ⟨values, recordsExtremes, fault, rfl, BoundaryFault.find?_eq_some_iff.1 hfind,
          (Except.error.inj hfault).symm⟩
  · rintro ⟨values, recordsExtremes, fault, rfl, hfault, rfl⟩
    exact kind?_of_find? recordsExtremes (BoundaryFault.find?_eq_some_iff.2 hfault)

/-- An aggregation is valid exactly over well-formed boundaries. -/
theorem judges_validate (values : List Binary64) (recordsExtremes : Bool) :
    Judges values (.aggregation · values) (histogram values recordsExtremes).validate := by
  refine .of_find? (fun h => ?_) (fun fault h => ?_) (ConfigError.names_aggregation values)
  · obtain ⟨kind, hkind⟩ := exists_kind?_of_find? recordsExtremes h
    exact ⟨(), by rw [validate, hkind]; rfl⟩
  · rw [validate, kind?_of_find? recordsExtremes h]
    rfl

/-- There is a plan for every kind, as a machine works on one thing at once at least. -/
theorem exists_sampling {T : Type} (filter : ExemplarFilter) (parallelism : Nat) (k : Kind) :
    ∃ plan : SamplingPlan T, sampling filter (max parallelism 1) k = .ok plan := by
  have hfixed : ∃ plan : SamplingPlan T,
      SamplingPlan.fixedSize filter (max parallelism 1) = .ok plan :=
    ⟨_, if_neg (by omega)⟩
  cases k with
  | histogram boundaries recordsExtremes => exact ⟨_, rfl⟩
  | sum monotonic => exact hfixed
  | lastValue => exact hfixed
  | minMaxSumCount => exact hfixed

end Aggregation

/-! ## Instruments -/

namespace Instrument

variable {T : Type} {stream : Stream} {aggregation : Aggregation} {filter : ExemplarFilter}
  {parallelism : Nat} {configs : List ReaderConfig}

/-- An instrument with a reader is set up if there is a kind for it. -/
theorem exists_new (hconfigs : configs ≠ []) {kind : Option Kind}
    (hkind : aggregation.kind? = .ok kind) :
    ∃ i : Instrument T, new stream aggregation filter parallelism configs = .ok i := by
  unfold new
  rw [if_neg (by simpa using hconfigs), hkind]
  cases kind with
  | none => exact ⟨_, rfl⟩
  | some k =>
    obtain ⟨plan, hplan⟩ := Aggregation.exists_sampling (T := T) filter parallelism k
    refine ⟨⟨stream, aggregation, .collecting k (configs.map (Collector.new plan stream))⟩, ?_⟩
    show (Aggregation.sampling filter (max parallelism 1) k >>= fun plan => _) = Except.ok _
    rw [hplan]
    rfl

/-- An instrument is refused with the error of its aggregation. -/
theorem new_of_fault (hconfigs : configs ≠ []) {e : ConfigError}
    (hkind : aggregation.kind? = .error e) :
    (new stream aggregation filter parallelism configs : Except _ (Instrument T)) = .error e := by
  unfold new
  rw [if_neg (by simpa using hconfigs), hkind]
  rfl

/-- An instrument cannot be set up without a reader, or else if the boundaries of its histogram are at
fault. -/
theorem new_eq_error_iff {e : ConfigError} :
    (new stream aggregation filter parallelism configs : Except _ (Instrument T)) = .error e ↔
      if configs = [] then e = .noReader stream.descriptor.name
      else aggregation.kind? = .error e := by
  split
  · rename_i hconfigs
    subst hconfigs
    exact ⟨fun h => (Except.error.inj h).symm, fun h => congrArg Except.error h.symm⟩
  · rename_i hconfigs
    refine ⟨fun h => ?_, new_of_fault hconfigs⟩
    cases hkind : aggregation.kind? with
    | error e' =>
      exact congrArg Except.error (Except.error.inj ((new_of_fault hconfigs hkind).symm.trans h))
    | ok kind =>
      have hok : ∃ i : Instrument T, new stream aggregation filter parallelism configs = .ok i :=
        exists_new hconfigs hkind
      obtain ⟨i, hi⟩ := hok
      cases hi.symm.trans h

/-- **Boundaries are judged alike everywhere.** An aggregation is validated, a kind of histogram is
made and an instrument with a reader is set up if and only if the boundaries are finite and each lies
below all those after it, the zeros being equal. If one of them is not finite, wherever it stands, then
the error says so, and only of finite ones it says that they do not increase. An instrument without
readers cannot be set up whatever its aggregation, and nothing else keeps it from being. -/
theorem setup_judges (values : List Binary64) (recordsExtremes : Bool) (stream : Stream)
    (filter : ExemplarFilter) (parallelism : Nat) :
    Judges values (.aggregation · values) (Aggregation.histogram values recordsExtremes).validate ∧
      Judges values .boundaries (Kind.histogramOver values recordsExtremes) ∧
      (∀ configs, configs ≠ [] → Judges values (.aggregation · values)
        (new stream (.histogram values recordsExtremes) filter parallelism configs :
          Except _ (Instrument T))) ∧
      BoundaryFault.notFinite.message =
        "Bucket boundaries must not contain NaN, Infinity, or -Infinity" ∧
      BoundaryFault.notIncreasing.message =
        "Bucket boundaries must be sorted and not contain any duplicates" ∧
      ∀ aggregation configs e,
        (new stream aggregation filter parallelism configs : Except _ (Instrument T)) = .error e ↔
          if configs = [] then e = .noReader stream.descriptor.name
          else ∃ values recordsExtremes fault, aggregation = .histogram values recordsExtremes ∧
            fault.Afflicts values ∧ e = .aggregation fault values := by
  refine ⟨?_, ?_, fun configs hconfigs => ?_, rfl, rfl, fun aggregation configs e => ?_⟩
  · exact Aggregation.judges_validate values recordsExtremes
  · exact Kind.judges_histogramOver values recordsExtremes
  · refine .of_find? (fun h => ?_) (fun fault h => ?_) (ConfigError.names_aggregation values)
    · obtain ⟨kind, hkind⟩ := Aggregation.exists_kind?_of_find? recordsExtremes h
      exact exists_new hconfigs hkind
    · exact new_of_fault hconfigs (Aggregation.kind?_of_find? recordsExtremes h)
  · rw [new_eq_error_iff, Aggregation.kind?_eq_error_iff]

/-- Zeros of either sign, of which the second is not above the first. -/
def bothZeros : List Binary64 := [⟨0⟩, ⟨0x8000000000000000⟩]

/-- One twice, and after it a NaN. -/
def stalledBeforeNaN : List Binary64 :=
  [⟨0x3FF0000000000000⟩, ⟨0x3FF0000000000000⟩, .nan]

/-- Both zeros in a row stall, a value that is not a number is the first fault though others stall,
and zero with one makes an instrument; without readers none is made. -/
theorem setup_judges_zeros_and_nan :
    (Aggregation.histogram bothZeros true).validate =
        .error (.aggregation .notIncreasing bothZeros) ∧
      Kind.histogramOver stalledBeforeNaN true = .error (.boundaries .notFinite) ∧
      (∃ i : Instrument Int64, new default (.histogram [⟨0⟩, .ofInt 1] true) .alwaysOn 4 [default] =
        .ok i) ∧
      (new default .drop .alwaysOn 4 [] : Except _ (Instrument Int64)) =
        .error (.noReader (default : Stream).descriptor.name) := by
  have hzeros := setup_judges (T := Int64) bothZeros true default .alwaysOn 4
  have hstalled := setup_judges (T := Int64) stalledBeforeNaN true default .alwaysOn 4
  have hproper := setup_judges (T := Int64) [⟨0⟩, .ofInt 1] true default .alwaysOn 4
  refine ⟨?_, ?_, ?_, ?_⟩
  · exact (hzeros.1.rejects_iff _).2 ⟨.notIncreasing, ⟨by decide, by decide⟩, rfl⟩
  · exact (hstalled.2.1.rejects_iff _).2 ⟨.notFinite, ⟨.nan, by decide, by decide⟩, rfl⟩
  · exact (hproper.2.2.1 [default] (by simp)).accepts_iff.2
      ⟨by decide +kernel, by decide +kernel⟩
  · exact (hproper.2.2.2.2.2 .drop [] _).2 rfl

end Instrument

end Metering
