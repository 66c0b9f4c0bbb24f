import Metering.Proofs.Instrument.Reporting
import Metering.Proofs.Reports.Exemplars
import Metering.Proofs.Reservoir.Buckets

/-!
# Exemplars and buckets

A histogram counts measurements into buckets, and its sampler keeps recordings in buckets; neither
asks the other which bucket a measurement belongs to. Both find the same one, so the exemplars of a
delta report line up with the buckets of their point (`exemplars_line_up_with_buckets`). They are from
the same cycle as the counts since a drain empties the tally and the sampler at once, and leaves the
handle as new. -/

namespace Metering

open Quantity

variable {T : Type} {k : Kind} [Quantity T]

/-- A live series is as a new handle that took in what was recorded since the last collection. -/
theorem Collector.Follows.handle_eq_recordAll {c : Collector T k} {l : Ledger T} (h : c.Follows l)
    (hkind : ∀ initial, c.sampling.kind ≠ .custom initial) {s : Series T k} (hs : s ∈ c.live) :
    s.handle = (Handle.fresh k c.sampling).recordAll (l.since s.id) := by
  rw [h.handle s hs, handleAfter, Handle.replay_snd_fresh hkind]
  rfl

section

variable {boundaries : Boundaries} {recordsExtremes : Bool}

/-- The exemplars of a histogram point line up with its buckets: they show one recording for each of
the sampled buckets, out of the recordings behind the point. -/
structure Point.LinesUp (filter : ExemplarFilter) (rs : List (Recording T))
    (p : Point T (.histogram boundaries recordsExtremes)) (sampled : List (Nat × Recording T)) :
    Prop where
  /-- There is one exemplar for each sampled bucket, in this order. -/
  shown : List.Forall₂ (fun (e : Exemplar T) (b : Nat × Recording T) => b.2.Shown p e) p.exemplars
    sampled
  ascending : (sampled.map (·.1)).Pairwise (· < ·)
  /-- The buckets are those that any recording fell into that the filter let through. -/
  sampled_iff (i : Nat) : i ∈ sampled.map (·.1) ↔ ∃ r ∈ rs, filter.accepts r.span = true ∧
    InBucket boundaries.values (toBinary64 r.value) i
  /-- The recording of a bucket is the last one of these. -/
  last : ∀ b ∈ sampled, IsLastOf (fun r => filter.accepts r.span = true ∧
    InBucket boundaries.values (toBinary64 r.value) b.1) rs b.2
  /-- If everything is let through, the buckets are those that count anything. -/
  alwaysOn : filter = .alwaysOn →
    ∀ i, i ∈ sampled.map (·.1) ↔ ∃ n, p.reading.buckets[i]? = some n ∧ n ≠ 0

variable [Numeric T]

/-- Recordings that are numbers land where they belong. -/
theorem landsIn_iff {filter : ExemplarFilter} {i : Nat} {r : Recording T}
    (hr : isNaN r.value = false) :
    BucketReservoir.landsIn filter boundaries.values i r = true ↔
      filter.accepts r.span = true ∧ InBucket boundaries.values (toBinary64 r.value) i := by
  rw [BucketReservoir.landsIn, Bool.and_eq_true, beq_iff_eq,
    boundaries.inBucket_iff (Numeric.isNaN_toBinary64 hr), eq_comm (a := i)]

/-- What a bucket of the sampler has is the last recording that belongs there. -/
theorem mem_sampledBuckets_iff {filter : ExemplarFilter} {rs : List (Recording T)}
    (hnumbers : ∀ r ∈ rs, isNaN r.value = false) (i : Nat) (r : Recording T) :
    (i, r) ∈ BucketReservoir.sampledBuckets filter boundaries.values rs ↔ IsLastOf (fun r =>
      filter.accepts r.span = true ∧ InBucket boundaries.values (toBinary64 r.value) i) rs r := by
  rw [BucketReservoir.mem_sampledBuckets, BucketReservoir.lastIn, getLast?_filter_eq_some]
  exact IsLastOf.congr fun r hr => landsIn_iff (hnumbers r hr)

/-- The sampler has something for every bucket that a recording belongs to. -/
theorem exists_sampled_iff {filter : ExemplarFilter} {rs : List (Recording T)}
    (hnumbers : ∀ r ∈ rs, isNaN r.value = false) (i : Nat) :
    i ∈ (BucketReservoir.sampledBuckets filter boundaries.values rs).map (·.1) ↔
      ∃ r ∈ rs, filter.accepts r.span = true ∧
        InBucket boundaries.values (toBinary64 r.value) i := by
  rw [List.mem_map]
  constructor
  · rintro ⟨⟨j, r⟩, hb, rfl⟩
    obtain ⟨before, after, rfl, hr, -⟩ := (mem_sampledBuckets_iff hnumbers j r).1 hb
    exact ⟨r, List.mem_append_right before List.mem_cons_self, hr⟩
  · rintro ⟨r, hr, hlands⟩
    -- something landed in the bucket, and so there is a last one
    have hne : (rs.filter (BucketReservoir.landsIn filter boundaries.values i)) ≠ [] :=
      List.ne_nil_of_mem (List.mem_filter.2 ⟨hr, (landsIn_iff (hnumbers r hr)).2 hlands⟩)
    exact ⟨(i, _), BucketReservoir.mem_sampledBuckets.2 (List.getLast?_eq_some_getLast hne), rfl⟩

/-- The point of a cycle counts something in the buckets that its recordings fell into. -/
theorem Point.counts_iff_of_drain {plan : SamplingPlan T} {rs : List (Recording T)}
    (hnumbers : ∀ r ∈ rs, isNaN r.value = false) (hlength : rs.length < 2 ^ 64)
    {a : Accumulation T (.histogram boundaries recordsExtremes)} {set : AttributeSet}
    (ha : (((Handle.fresh _ plan).recordAll rs).drain set).1 = some a) (i : Nat) :
    (∃ n, (a.point set).reading.buckets[i]? = some n ∧ n ≠ 0) ↔
      ∃ r ∈ rs, InBucket boundaries.values (toBinary64 r.value) i := by
  have htally :=
    (Handle.rested_fresh (.histogram boundaries recordsExtremes) plan).drain_tally set rs
  have hne : rs ≠ [] := by
    rintro rfl
    rw [ha, if_pos rfl] at htally
    cases htally
  rw [ha, if_neg hne, Option.map_some, Option.some_inj] at htally
  rw [← Distribution.bucket_ne_zero_iff boundaries hlength hnumbers i]
  show (∃ n, a.tally.buckets[i]? = some n ∧ n ≠ 0) ↔ _
  rw [htally]
  rfl

/-- What a new handle yields for the recordings of one cycle lines up with its buckets. -/
theorem Point.linesUp_of_drain {filter : ExemplarFilter} {rs : List (Recording T)}
    (hnumbers : ∀ r ∈ rs, isNaN r.value = false) (hlength : rs.length < 2 ^ 64)
    {a : Accumulation T (.histogram boundaries recordsExtremes)} {set : AttributeSet}
    (ha : (((Handle.fresh _ (.alignedBuckets filter boundaries.values)).recordAll rs).drain
      set).1 = some a) :
    (a.point set).LinesUp filter rs
      (BucketReservoir.sampledBuckets filter boundaries.values rs) where
  shown := by
    rw [show (a.point set).exemplars = _ from Handle.exemplars_eq_sampledBuckets ha,
      List.forall₂_map_left_iff]
    exact List.forall₂_same.2 fun b _ => b.2.shown_exemplar set a
  ascending := BucketReservoir.ascending_sampledBuckets rs
  sampled_iff := exists_sampled_iff hnumbers
  last b hb := (mem_sampledBuckets_iff hnumbers b.1 b.2).1 hb
  alwaysOn hfilter i := by
    have haccepts (r : Recording T) : filter.accepts r.span = true := by
      rw [hfilter]
      rfl
    rw [exists_sampled_iff hnumbers, Point.counts_iff_of_drain hnumbers hlength ha]
    simp only [haccepts, true_and]

end

namespace Instrument

variable [Numeric T] {i : Instrument T} {reader : Nat}

/-- **Exemplars line up with buckets.** Take an instrument that is summarised as a histogram, with any
filter, a delta reader of it, any commands with fewer than `2 ^ 64` recordings, and a command that
gives the reader a report. Each point of the report has one exemplar for every bucket that any of the
recordings behind it fell into that the filter let through, and no others. They are in the order of
the buckets, and each shows the last such recording. If the filter lets everything through, they are
those of the buckets that count anything. The recordings behind a point are those that went into its
series since the reader collected last, out of all that the instrument took. -/
theorem exemplars_line_up_with_buckets {stream : Stream} {values : List Binary64}
    {recordsExtremes : Bool} {filter : ExemplarFilter} {parallelism : Nat}
    {configs : List ReaderConfig}
    (hnew : new stream (.histogram values recordsExtremes) filter parallelism configs = .ok i)
    {config : ReaderConfig} (hconfig : configs[reader]? = some config)
    (hdelta : config.temporality = .delta) {before : List (Command T)}
    (hcount : (before.filterMap Command.recording?).length < 2 ^ 64) {command : Command T}
    {report : Report T}
    (hreport : ((i.run before).2.perform command).1.answer? reader command = some (some report)) :
    ∃ (boundaries : Boundaries) (m : Metric T (.histogram boundaries recordsExtremes)),
      boundaries.values = values ∧ report = ⟨_, m⟩ ∧
      let first : Collector T (.histogram boundaries recordsExtremes) :=
        .new (.alignedBuckets filter values) stream config
      let heard := before.filterMap (Command.heardBy (.histogram values recordsExtremes) reader)
      (first.ledger {} heard).entries.map (·.recording) =
          accepted (.histogram values recordsExtremes) before ∧
        first.Pointwise heard m fun rs p => ∃ sampled, p.LinesUp filter rs sampled := by
  obtain ⟨k, sampling, m, hkind, hsampling, rfl, hplain, start, time, hm⟩ :=
    exists_collect_of_answer hnew hconfig hreport
  obtain ⟨boundaries, rfl, rfl⟩ := Aggregation.exists_boundaries hkind
  cases hsampling
  refine ⟨boundaries, m, rfl, rfl, entries_heard _ stream config hplain, ?_⟩
  -- `pointwise_heard` also covers cumulative readers, of which this is none
  have hcumulative (h : config.temporality = .cumulative) : False := by
    rw [hdelta] at h
    cases h
  refine pointwise_heard hplain (fun h => (hcumulative h).elim) hm
    fun c l hsampling hfollows s hs hbehind a ha => ?_
  rw [hdelta] at ha hbehind ⊢
  have hhandle := hfollows.handle_eq_recordAll (hsampling ▸ nofun) hs
  rw [hsampling] at hhandle
  rw [Collector.account, Series.yield, hhandle] at ha
  have hlength := hbehind.length_le.trans (length_accepted_le _ before)
  exact ⟨_, Point.linesUp_of_drain (fun r hr => isNaN_of_mem_accepted (hbehind.subset hr))
    (hlength.trans_lt hcount) ha⟩

/-- Buckets below 0, from 0 to 5, and from 5 on. -/
def signedValues : List Binary64 := [.ofInt 0, .ofInt 5]

/-- A delta reader with one series, which it evicts after one idle collection. -/
def evictingReader : ReaderConfig :=
  { temporality := .delta, limit := 1, limit_pos := Nat.one_pos, maxIdle := some 1,
    maxIdle_ne_zero := mt Option.some.inj Nat.one_ne_zero }

/-- The series is evicted between two cycles of the first reader. In the second of them, the number 5
falls onto a boundary, and the last recording is made outside of sampled spans. -/
def bucketCommands : List (Command Int64) :=
  let span := Collector.tracedSpan
  [.record { value := 3, span }, .collect 0 0 1, .collect 0 0 2, .record { value := -4, span },
    .record { value := 9, span }, .collect 1 0 3, .record { value := 5, span },
    .record { value := 2 }]

theorem exemplars_line_up_with_buckets_evicting :
    ∃ (i : Instrument Int64) (report : Report Int64),
      new default (.histogram signedValues true) .traceBased 1 [evictingReader, default] = .ok i ∧
      (bucketCommands.filterMap Command.recording?).length < 2 ^ 64 ∧
      ((i.run bucketCommands).2.perform (.shutdown 0 4)).1.answer? 0 (.shutdown 0 4) =
        some (some report) ∧
      report.2.points.map (·.exemplars.map (·.value)) = [[-4, 5]] ∧
      ∃ (boundaries : Boundaries) (m : Metric Int64 (.histogram boundaries true)),
        boundaries.values = signedValues ∧ report = ⟨_, m⟩ ∧
        (Collector.new (.alignedBuckets .traceBased signedValues) default evictingReader).Pointwise
          (bucketCommands.filterMap (Command.heardBy (.histogram signedValues true) 0)) m
          fun rs p => ∃ sampled, p.LinesUp .traceBased rs sampled := by
  let last (i : Instrument Int64) : Option (Option (Report Int64)) :=
    ((i.run bucketCommands).2.perform (.shutdown 0 4)).1.answer? 0 (.shutdown 0 4)
  have hshown : (new default (.histogram signedValues true) .traceBased 1
      [evictingReader, default]).toOption.bind (fun i =>
        (last i).join.map fun report => report.2.points.map (·.exemplars.map (·.value))) =
        some [[-4, 5]] := by decide +kernel
  obtain ⟨i, hi, hreport⟩ := Option.bind_eq_some_iff.1 hshown
  obtain ⟨report, hlast, hvalues⟩ := Option.map_eq_some_iff.1 hreport
  have hnew := eq_ok_of_toOption hi
  have hcount : (bucketCommands.filterMap Command.recording?).length < 2 ^ 64 := by decide
  have hanswer : last i = some (some report) := Option.join_eq_some_iff.1 hlast
  obtain ⟨boundaries, m, hboundaries, hm, -, hpoints⟩ :=
    exemplars_line_up_with_buckets hnew rfl rfl hcount hanswer
  exact ⟨i, report, hnew, hcount, hanswer, hvalues, boundaries, m, hboundaries, hm, hpoints⟩

end Instrument

end Metering
