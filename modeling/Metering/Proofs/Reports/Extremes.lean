import Metering.Proofs.Instrument.Reporting
import Metering.Proofs.Quantity.Rounding

/-!
# Reported extremes

The extremes that a point shows are measurements, never the bounds of the type that the extremes of
nothing start from: a point stands for some recordings, and none of those that an instrument takes is
a NaN, which would be no better than the bounds. Extremes are compared as they were measured, and
buckets are found after rounding. Since rounding keeps the order, the minimum still lies in the first
bucket that counts anything, and the maximum in the last (`extremes_are_real_and_fit_buckets`). -/

namespace Metering

open Quantity

variable {T : Type} [Quantity T]

/-! ## What extremes are -/

/-- Two of the values, and all others lie between them. -/
structure Ends (vs : List T) (min max : T) : Prop where
  min_mem : min ∈ vs
  max_mem : max ∈ vs
  min_le : ∀ v ∈ vs, numLe min v = true
  le_max : ∀ v ∈ vs, numLe v max = true

/-- A summary shows the ends of the values behind it, rounded as the values are. -/
def SummaryReading.ShowsEnds (reading : SummaryReading T) (vs : List T) : Prop :=
  0 < reading.count ∧ ∃ min max, Ends vs min max ∧
    reading.quantiles = [(.zero, toBinary64 min), (.ofInt 1, toBinary64 max)] ∧
    ∀ v ∈ vs, (toBinary64 min).numLe (toBinary64 v) = true ∧
      (toBinary64 v).numLe (toBinary64 max) = true

/-- The bucket of an index counts anything. -/
def HistogramReading.Fills (reading : HistogramReading T) (i : Nat) : Prop :=
  ∃ n, reading.buckets[i]? = some n ∧ n ≠ 0

/-- The first of the buckets that count anything, and the last. -/
structure HistogramReading.Encloses (reading : HistogramReading T) (first last : Nat) : Prop where
  fills_first : reading.Fills first
  fills_last : reading.Fills last
  between : ∀ i, reading.Fills i → first ≤ i ∧ i ≤ last

/-- A histogram shows the ends of the values behind it, and they lie in the first and the last bucket
that count anything. -/
def HistogramReading.ShowsEnds (reading : HistogramReading T) (vs : List T) : Prop :=
  0 < reading.count ∧ ∃ min max, Ends vs min max ∧
    reading.min = some min ∧ reading.max = some max ∧
    ∃ first last, reading.Encloses first last ∧ InBucket reading.bounds (toBinary64 min) first ∧
      InBucket reading.bounds (toBinary64 max) last

/-- A reading shows the ends of the values behind it; those of sums and latest values do not. -/
def Kind.ShowsEnds : (k : Kind) → k.Reading T → List T → Prop
  | .minMaxSumCount, reading, vs => reading.ShowsEnds vs
  | .histogram _ _, reading, vs => reading.ShowsEnds vs
  | .sum _, _, _ | .lastValue, _, _ => False

/-! ## Ends of recordings -/

section

variable [Ranked T] {rs : List (Recording T)}

theorem rank_le_of_numLe {v w : T} (h : numLe v w = true) : Ranked.rank v ≤ Ranked.rank w := by
  rw [Ranked.numLe_eq, Bool.and_eq_true] at h
  exact of_decide_eq_true h.2

/-- The running extremes of numbers are their ends. -/
theorem ends_foldl [Bounded T] {vs : List T} (hne : vs ≠ []) (hnumbers : ∀ v ∈ vs, isNaN v = false) :
    Ends vs (vs.foldl lower greatest) (vs.foldl higher least) := by
  have hsome : ∃ v ∈ vs, isNaN v = false := by
    obtain ⟨v, rest, rfl⟩ := List.exists_cons_of_ne_nil hne
    exact ⟨v, List.mem_cons_self, hnumbers v List.mem_cons_self⟩
  have hmin := isMinimum_foldl_lower vs
  have hmax := isMaximum_foldl_higher vs
  exact ⟨hmin.mem hsome, hmax.mem hsome, fun v hv => hmin.before_all v hv (hnumbers v hv),
    fun v hv => hmax.before_all v hv (hnumbers v hv)⟩

/-- The spread of recordings counts some, and has their ends. -/
theorem Spread.ends_foldl [Bounded T] (hne : rs ≠ []) (hlength : rs.length < 2 ^ 64)
    (hnumbers : ∀ r ∈ rs, isNaN r.value = false) :
    let s := rs.foldl (fun s r => s.record r.value) Spread.fresh
    0 < s.count ∧ Ends (rs.map (·.value)) s.min s.max := by
  intro s
  have hs : s = ⟨0 + UInt64.ofNat rs.length, rs.foldl (fun a r => add a r.value) zero,
    (rs.map (·.value)).foldl lower greatest, (rs.map (·.value)).foldl higher least⟩ :=
    foldl_record fresh rs
  have hvalues : ∀ v ∈ rs.map (·.value), isNaN v = false := by
    intro v hv
    obtain ⟨r, hr, rfl⟩ := List.mem_map.1 hv
    exact hnumbers r hr
  have hcount : s.count ≠ 0 := by
    rw [hs]
    show 0 + UInt64.ofNat rs.length ≠ 0
    rw [UInt64.zero_add, Ne, ofNat_eq_zero_iff hlength, List.length_eq_zero_iff]
    exact hne
  refine ⟨UInt64.pos_iff_ne_zero.2 hcount, ?_⟩
  rw [hs]
  exact Metering.ends_foldl (by simpa using hne) hvalues

variable [Rounded T]

/-- Rounding keeps the order of numbers. -/
theorem numLe_toBinary64 {v w : T} (hv : isNaN v = false) (hw : isNaN w = false)
    (h : numLe v w = true) : (toBinary64 v).numLe (toBinary64 w) = true := by
  rw [Binary64.numLe_iff (Numeric.isNaN_toBinary64 hv) (Numeric.isNaN_toBinary64 hw)]
  exact Rounded.rank_toBinary64_le (rank_le_of_numLe h)

/-- Rounded numbers fall into buckets in their order. -/
theorem bucketOf_toBinary64_le (boundaries : Boundaries) {v w : T} (hv : isNaN v = false)
    (hw : isNaN w = false) (h : numLe v w = true) :
    bucketOf boundaries.values (toBinary64 v) ≤ bucketOf boundaries.values (toBinary64 w) :=
  boundaries.bucketOf_le_bucketOf (Numeric.isNaN_toBinary64 hv) (Numeric.isNaN_toBinary64 hw)
    (Rounded.rank_toBinary64_le (rank_le_of_numLe h))

/-- The ends of recordings lie in the first and the last bucket that any of them fell into. -/
theorem Ends.encloses (boundaries : Boundaries) (hnumbers : ∀ r ∈ rs, isNaN r.value = false)
    {min max : T} (h : Ends (rs.map (·.value)) min max) {reading : HistogramReading T}
    (hfills : ∀ i, reading.Fills i ↔ ∃ r ∈ rs, InBucket boundaries.values (toBinary64 r.value) i) :
    reading.Encloses (bucketOf boundaries.values (toBinary64 min))
      (bucketOf boundaries.values (toBinary64 max)) := by
  have hin (r : Recording T) (hr : r ∈ rs) (i : Nat) :
      InBucket boundaries.values (toBinary64 r.value) i ↔
        i = bucketOf boundaries.values (toBinary64 r.value) :=
    boundaries.inBucket_iff (Numeric.isNaN_toBinary64 (hnumbers r hr))
  obtain ⟨r, hr, rfl⟩ := List.mem_map.1 h.min_mem
  obtain ⟨r', hr', rfl⟩ := List.mem_map.1 h.max_mem
  refine ⟨(hfills _).2 ⟨r, hr, (hin r hr _).2 rfl⟩, (hfills _).2 ⟨r', hr', (hin r' hr' _).2 rfl⟩,
    fun i hi => ?_⟩
  obtain ⟨s, hs, hsi⟩ := (hfills i).1 hi
  have hvalue := List.mem_map_of_mem (f := (·.value)) hs
  rw [(hin s hs i).1 hsi]
  exact ⟨bucketOf_toBinary64_le boundaries (hnumbers r hr) (hnumbers s hs) (h.min_le _ hvalue),
    bucketOf_toBinary64_le boundaries (hnumbers s hs) (hnumbers r' hr') (h.le_max _ hvalue)⟩

/-- A point of recordings shows their ends. -/
theorem Kind.showsEnds_read [Bounded T] {k : Kind}
    (hk : k = .minMaxSumCount ∨ ∃ boundaries, k = .histogram boundaries true) (hne : rs ≠ [])
    (hlength : rs.length < 2 ^ 64) (hnumbers : ∀ r ∈ rs, isNaN r.value = false) (v : T) :
    k.ShowsEnds (k.read (k.withSum (k.tallyOf rs) v)) (rs.map (·.value)) := by
  obtain ⟨hcount, hends⟩ := Spread.ends_foldl hne hlength hnumbers
  have hnumber {v : T} (hv : v ∈ rs.map (·.value)) : isNaN v = false := by
    obtain ⟨r, hr, rfl⟩ := List.mem_map.1 hv
    exact hnumbers r hr
  obtain rfl | ⟨boundaries, rfl⟩ := hk
  -- of a plain spread there is nothing more to show; of a histogram, the end buckets
  · refine ⟨hcount, _, _, hends, rfl, fun v hv => ⟨?_, ?_⟩⟩
    · exact numLe_toBinary64 (hnumber hends.min_mem) (hnumber hv) (hends.min_le v hv)
    · exact numLe_toBinary64 (hnumber hv) (hnumber hends.max_mem) (hends.le_max v hv)
  · let d : Distribution T := rs.foldl (fun d r => d.record boundaries r.value) (.fresh boundaries)
    have hspread : d.toSpread = rs.foldl (fun s r => s.record r.value) Spread.fresh :=
      congrArg Distribution.toSpread (Distribution.foldl_record boundaries (.fresh boundaries) rs)
    rw [← hspread] at hcount hends
    have hextremes : (true && decide (0 < d.count)) = true := by
      rw [decide_eq_true hcount, Bool.and_true]
    have hfills (i : Nat) := Distribution.bucket_ne_zero_iff boundaries hlength hnumbers i
    have hmin := boundaries.inBucket_bucketOf (Numeric.isNaN_toBinary64 (hnumber hends.min_mem))
    have hmax := boundaries.inBucket_bucketOf (Numeric.isNaN_toBinary64 (hnumber hends.max_mem))
    exact ⟨hcount, d.min, d.max, hends, if_pos hextremes, if_pos hextremes, _, _,
      hends.encloses boundaries hnumbers hfills, hmin, hmax⟩

end

namespace Instrument

variable [Ranked T] [Bounded T] [Rounded T] {i : Instrument T} {reader : Nat}

/-- **Extremes are real and fit the buckets.** Take an instrument that is summarised by its extremes,
sum and count or as a histogram with extremes, any reader of it, any commands with fewer than `2 ^ 64`
recordings, all of sets that equal themselves, and a command that gives the reader a report. Each point
of the report counts something. Its minimum and its maximum are values of recordings behind the point,
rounded in a summary, and all other recordings behind it lie between them. In a histogram, the minimum
lies in the first bucket that counts anything and the maximum in the last. The recordings behind a
point are those that went into its series, out of all that the instrument took: since the reader
collected last if its reports are deltas, and ever if they are cumulative. -/
theorem extremes_are_real_and_fit_buckets {stream : Stream} {aggregation : Aggregation}
    (haggregation : aggregation = .minMaxSumCount ∨ ∃ values, aggregation = .histogram values true)
    {filter : ExemplarFilter} {parallelism : Nat} {configs : List ReaderConfig}
    (hnew : new stream aggregation filter parallelism configs = .ok i) {config : ReaderConfig}
    (hconfig : configs[reader]? = some config) {before : List (Command T)}
    (hreflexive : ∀ r, .record r ∈ before →
      (config.filter.apply r.attributes == config.filter.apply r.attributes) = true)
    (hcount : (before.filterMap Command.recording?).length < 2 ^ 64) {command : Command T}
    {report : Report T}
    (hreport : ((i.run before).2.perform command).1.answer? reader command = some (some report)) :
    ∃ (k : Kind) (sampling : SamplingPlan T) (m : Metric T k),
      aggregation.kind? = .ok (some k) ∧
      Aggregation.sampling filter (max parallelism 1) k = .ok sampling ∧ report = ⟨k, m⟩ ∧
      let first : Collector T k := .new sampling stream config
      let heard := before.filterMap (Command.heardBy aggregation reader)
      (first.ledger {} heard).entries.map (·.recording) = accepted aggregation before ∧
        first.Pointwise heard m fun rs p => k.ShowsEnds p.reading (rs.map (·.value)) := by
  obtain ⟨k, sampling, m, hkind, hsampling, rfl, hplain, start, time, hm⟩ :=
    exists_collect_of_answer hnew hconfig hreport
  have hk : k = .minMaxSumCount ∨ ∃ boundaries, k = .histogram boundaries true := by
    obtain rfl | ⟨values, rfl⟩ := haggregation
    · cases hkind
      exact .inl rfl
    · obtain ⟨boundaries, -, rfl⟩ := Aggregation.exists_boundaries hkind
      exact .inr ⟨boundaries, rfl⟩
  have hlast : k ≠ .lastValue := by
    rintro rfl
    rcases hk with hk | ⟨boundaries, hk⟩ <;> cases hk
  refine ⟨k, sampling, m, hkind, hsampling, rfl, entries_heard sampling stream config hplain, ?_⟩
  refine pointwise_heard hplain (fun _ => hreflexive) hm fun c l _ hfollows s hs hbehind a ha => ?_
  -- the sum of a cumulative point may depend on the cycles, but its extremes do not
  obtain ⟨hne, v, htally, -⟩ := hfollows.account_tally (fun h => absurd h hlast) hs ha
  have hlength := hbehind.length_le.trans (length_accepted_le aggregation before)
  have hends := Kind.showsEnds_read hk hne (hlength.trans_lt hcount)
    (fun r hr => isNaN_of_mem_accepted (hbehind.subset hr)) v
  rw [← htally] at hends
  exact hends

/-- Two buckets that part where only every other whole number is a floating-point number. -/
def inexactValues : List Binary64 := [.ofInt (2 ^ 53 + 4)]

/-- Both numbers lie below the boundary. The first is rounded down, and the second up to it. -/
def inexactCommands : List (Command Int64) :=
  [.record { value := 2 ^ 53 + 1 }, .collect 0 0 1, .record { value := 2 ^ 53 + 3 }]

theorem extremes_are_real_and_fit_buckets_rounded :
    let shown : Report Int64 → List (Option Int64 × Option Int64 × List UInt64)
      | ⟨.histogram _ _, m⟩ => m.points.map fun p => (p.reading.min, p.reading.max, p.reading.buckets)
      | _ => []
    ∃ (i : Instrument Int64) (report : Report Int64),
      new default (.histogram inexactValues true) .alwaysOff 1 [{}] = .ok i ∧
      ((i.run inexactCommands).2.perform (.collect 0 0 2)).1.answer? 0 (.collect 0 0 2) =
        some (some report) ∧
      shown report = [(some (2 ^ 53 + 1), some (2 ^ 53 + 3), [1, 1])] ∧
      ∃ (k : Kind) (sampling : SamplingPlan Int64) (m : Metric Int64 k), report = ⟨k, m⟩ ∧
        (Collector.new sampling default {}).Pointwise
          (inexactCommands.filterMap (Command.heardBy (.histogram inexactValues true) 0)) m
          fun rs p => k.ShowsEnds p.reading (rs.map (·.value)) := by
  intro shown
  let last (i : Instrument Int64) : Option (Option (Report Int64)) :=
    ((i.run inexactCommands).2.perform (.collect 0 0 2)).1.answer? 0 (.collect 0 0 2)
  have hshown : (new default (.histogram inexactValues true) .alwaysOff 1 [{}]).toOption.bind
      (fun i => (last i).join.map shown) =
        some [(some (2 ^ 53 + 1), some (2 ^ 53 + 3), [1, 1])] := by decide +kernel
  have hreflexive : ∀ r ∈ inexactCommands.filterMap Command.recording?,
      (KeyFilter.apply ⟨none⟩ r.attributes == KeyFilter.apply ⟨none⟩ r.attributes) = true := by
    decide +kernel
  obtain ⟨i, hi, hreport⟩ := Option.bind_eq_some_iff.1 hshown
  obtain ⟨report, hlast, hvalues⟩ := Option.map_eq_some_iff.1 hreport
  have hnew := eq_ok_of_toOption hi
  have hanswer : last i = some (some report) := Option.join_eq_some_iff.1 hlast
  obtain ⟨k, sampling, m, -, -, hm, -, hpoints⟩ := extremes_are_real_and_fit_buckets
    (.inr ⟨_, rfl⟩) hnew rfl (fun r hr => hreflexive r (mem_recordings hr)) (by decide) hanswer
  exact ⟨i, report, hnew, hanswer, hvalues, k, sampling, m, hm, hpoints⟩

end Instrument

end Metering
