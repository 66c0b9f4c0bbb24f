import Metering.Proofs.Collector.Narrowing

/-!
# What a lower limit costs

A lower limit costs detail, and no data (`limit_loses_no_data`). A series that the collector with
the lower limit still tracks is reported as it is with the higher one. What else the other collector
has to report is, merged in any order, what the overflow series reports: the overflow series took
the same recordings as those further series together, mixed as they came, and parts of a stretch
merge to the whole. -/

namespace Metering

variable {T : Type} {k : Kind} [Quantity T]

/-- The points that a collection shows, if it reports anything. -/
def Metric.shown (m : Option (Metric T k)) : List (Point T k) := m.elim [] (·.points)

/-- The point is that of an ordinary series. -/
def Point.IsOrdinary (p : Point T k) : Prop := p.attributes ≠ AttributeSet.overflow.toList

instance (p : Point T k) : Decidable p.IsOrdinary :=
  inferInstanceAs (Decidable (p.attributes ≠ AttributeSet.overflow.toList))

/-- The accounts that no ordinary point stands for. -/
def further (points : List (Point T k)) (accounts : List (AttributeSet × Accumulation T k)) :
    List (AttributeSet × Accumulation T k) :=
  accounts.filter fun e => !points.any fun p => p.IsOrdinary ∧ p.attributes = e.1.toList

/-- Points that show less detail than accounts do, and no less data. -/
structure Coarsens (points : List (Point T k)) (accounts : List (AttributeSet × Accumulation T k)) :
    Prop where
  /-- An ordinary point shows one of the accounts. -/
  ordinary : ∀ p ∈ points, p.IsOrdinary →
    ∃ e ∈ accounts, p.attributes = e.1.toList ∧ p.reading = k.read e.2.tally
  /-- There is an overflow point if there are further accounts, and only then. -/
  overflow : (∃ p ∈ points, ¬ p.IsOrdinary) ↔ further points accounts ≠ []
  /-- It shows the further accounts, merged in any order. -/
  merged : ∀ p ∈ points, ¬ p.IsOrdinary →
    ∀ as, as.Perm ((further points accounts).map (·.2)) →
      ∃ a, Accumulation.joinAll as = some a ∧ p.reading = k.read a.tally

namespace Collector

/-! ## One collection -/

/-- The points of a collection show its accounts. -/
theorem shown_collect {c : Collector T k} {l : Ledger T} (h : c.Follows l) (start time : Time) :
    Metric.shown (c.collect start time).1 =
      (c.accounts start time).map fun e => e.2.point e.1 := by
  rw [collect_fst h.distinct h.detached, report]
  cases c.accounts start time <;> rfl

/-- The recordings of the open cycle whose sets have no ordinary series. -/
def untracked (c : Collector T k) (l : Ledger T) : List (Recording T) :=
  (l.current.map (·.recording)).filter fun r => !c.tracks (c.setOf r)

namespace Routed

variable {c : Collector T k} {l : Ledger T} {start time : Time}

/-- An ordinary series has the recordings of its set. -/
theorem received_of_ordinary (h : c.Routed l) {n : Nat × AttributeSet} (hn : n ∈ c.names)
    (hordinary : n.2 ≠ .overflow) :
    received l.current n.1 = (l.current.map (·.recording)).filter fun r => n.2 == c.setOf r := by
  rw [received_eq_map_filter, List.filter_map]
  refine congrArg _ (List.filter_congr fun e he => ?_)
  have hset : (n.2 == c.setOf e.recording) = true ↔ n.2 = c.setOf e.recording :=
    (h.proper n hn).beq_iff (c.digested_setOf _)
  rw [Bool.eq_iff_iff, beq_iff_eq, Function.comp_apply, hset,
    h.series_eq_iff_of_ordinary he hn hordinary]
  exact eq_comm

/-- The overflow series has the recordings of the sets without an ordinary series. -/
theorem received_of_overflow (h : c.Routed l) {n : Nat × AttributeSet} (hn : n ∈ c.names)
    (hoverflow : n.2 = .overflow) : received l.current n.1 = c.untracked l := by
  rw [untracked, received_eq_map_filter, List.filter_map]
  refine congrArg _ (List.filter_congr fun e he => ?_)
  have hset : c.tracks (c.setOf e.recording) = true ↔ c.setOf e.recording ∈ c.ordinarySets :=
    h.proper.tracks_iff (c.digested_setOf _)
  rw [Bool.eq_iff_iff, beq_iff_eq, h.series_eq_iff_of_overflow he hn hoverflow, ← hset]
  simp

/-- A recording that reached the overflow series, or only names beyond what another collector
tracks. -/
theorem untracked_of_reaches {other : Collector T k} (h : c.Routed l)
    (hsets : ∀ set ∈ other.ordinarySets, set ∈ c.ordinarySets) {e : Entry T} (he : e ∈ l.current)
    {n : Nat × AttributeSet} (hn : n ∈ c.names) (hid : e.series = n.1) :
    n.2 ∉ other.ordinarySets ↔ c.setOf e.recording ∉ other.ordinarySets := by
  by_cases hover : n.2 = .overflow
  · have hnone := (h.series_eq_iff_of_overflow he hn hover).1 hid
    rw [hover]
    exact iff_of_true other.overflow_not_mem_ordinarySets fun hmem => hnone (hsets _ hmem)
  · rw [(h.series_eq_iff_of_ordinary he hn hover).1 hid]

/-- A series is accounted for if it has recordings in the open cycle. -/
theorem mem_accounts_iff (h : c.Routed l) (hdelta : c.config.temporality = .delta)
    (start time : Time) {n : Nat × AttributeSet} (hn : n ∈ c.names) :
    (∃ a, (n.2, a) ∈ c.accounts start time) ↔ received l.current n.1 ≠ [] := by
  constructor
  · rintro ⟨a, ha⟩
    obtain ⟨m, hm, hset, hne, -⟩ := tally_of_mem_accounts_delta h.toFollows hdelta ha
    rwa [h.name_eq hm hn hset] at hne
  · intro hne
    by_contra hnone
    exact hne (received_current_eq_nil h.toFollows hdelta hn fun a ha => hnone ⟨a, ha⟩)

/-- What a report accounts for in a series is the tally of what it received. -/
theorem tally_of_mem_accounts (h : c.Routed l) (hdelta : c.config.temporality = .delta)
    {n : Nat × AttributeSet} (hn : n ∈ c.names) {a : Accumulation T k}
    (ha : (n.2, a) ∈ c.accounts start time) : a.tally = k.tallyOf (received l.current n.1) := by
  obtain ⟨m, hm, hset, -, htally⟩ := tally_of_mem_accounts_delta h.toFollows hdelta ha
  rwa [h.name_eq hm hn hset] at htally

/-- Whatever is accounted for is so under the set of a live series. -/
theorem exists_name_of_mem_accounts (h : c.Routed l) (hdelta : c.config.temporality = .delta)
    {e : AttributeSet × Accumulation T k} (he : e ∈ c.accounts start time) :
    ∃ n ∈ c.names, n.2 = e.1 := by
  obtain ⟨n, hn, hset, -⟩ := tally_of_mem_accounts_delta h.toFollows hdelta he
  exact ⟨n, hn, hset⟩

/-- Accounts tell sets apart by their attributes. -/
theorem toList_inj (h : c.Routed l) (hdelta : c.config.temporality = .delta)
    {e : AttributeSet × Accumulation T k} (he : e ∈ c.accounts start time) {set : AttributeSet}
    (hset : set.digested = true) (hlist : e.1.toList = set.toList) : e.1 = set := by
  obtain ⟨n, hn, hne⟩ := h.exists_name_of_mem_accounts hdelta he
  exact AttributeSet.eq_of_toList hlist ((hne ▸ (h.proper n hn).digested).trans hset.symm)

/-- A point shows the account of a series, and is ordinary if the series is. -/
theorem exists_name_of_mem_shown (h : c.Routed l) (hdelta : c.config.temporality = .delta)
    {p : Point T k} (hp : p ∈ Metric.shown (c.collect start time).1) :
    ∃ n ∈ c.names, ∃ a, (n.2, a) ∈ c.accounts start time ∧ p = a.point n.2 ∧
      (p.IsOrdinary ↔ n.2 ≠ .overflow) := by
  rw [shown_collect h.toFollows] at hp
  obtain ⟨e, he, rfl⟩ := List.mem_map.1 hp
  obtain ⟨n, hn, hset⟩ := h.exists_name_of_mem_accounts hdelta he
  refine ⟨n, hn, e.2, hset ▸ he, congrArg e.2.point hset.symm, not_congr ?_⟩
  rw [hset]
  exact ⟨h.toList_inj hdelta he rfl, fun hover => congrArg (·.toList) hover⟩

/-- An overflow point shows the recordings without an ordinary series. -/
theorem reading_of_overflow (h : c.Routed l) (hdelta : c.config.temporality = .delta)
    {p : Point T k} (hp : p ∈ Metric.shown (c.collect start time).1) (hpoint : ¬ p.IsOrdinary) :
    c.untracked l ≠ [] ∧ p.reading = k.read (k.tallyOf (c.untracked l)) := by
  obtain ⟨n, hn, a, ha, rfl, hordinary⟩ := h.exists_name_of_mem_shown hdelta hp
  have hover : n.2 = .overflow := not_not.1 (hpoint ∘ hordinary.2)
  rw [← h.received_of_overflow hn hover]
  refine ⟨(h.mem_accounts_iff hdelta start time hn).1 ⟨a, ha⟩, congrArg k.read ?_⟩
  exact h.tally_of_mem_accounts hdelta hn ha

/-- If there are recordings without an ordinary series, there is an overflow point. -/
theorem exists_overflow_point (h : c.Routed l) (hdelta : c.config.temporality = .delta)
    (start time : Time) (hne : c.untracked l ≠ []) :
    ∃ p ∈ Metric.shown (c.collect start time).1, ¬ p.IsOrdinary := by
  obtain ⟨r, hr⟩ := List.exists_mem_of_ne_nil _ hne
  obtain ⟨hr, huntracked⟩ := List.mem_filter.1 hr
  obtain ⟨e, he, rfl⟩ := List.mem_map.1 hr
  obtain ⟨n, hn, -, hreach⟩ := h.reaches e he
  -- a recording of a set that is not tracked can only have come to the overflow series
  have hover : n.2 = .overflow := by
    by_contra hordinary
    rcases hreach with hown | hshared
    · have htracked : c.tracks (c.setOf e.recording) = true := by
        rw [h.proper.tracks_iff (c.digested_setOf _), ← hown]
        exact h.mem_ordinarySets_of_ne hn hordinary
      rw [htracked] at huntracked
      cases huntracked
    · exact hordinary hshared.1
  obtain ⟨a, ha⟩ :=
    (h.mem_accounts_iff hdelta start time hn).2 ((h.received_of_overflow hn hover).symm ▸ hne)
  rw [shown_collect h.toFollows]
  refine ⟨a.point n.2, List.mem_map_of_mem (f := fun e => e.2.point e.1) ha, ?_⟩
  exact not_not.2 (congrArg (·.toList) hover)

end Routed

/-! ## Two collections -/

omit [Quantity T] in
/-- Accounts picked by their sets are those of the series with the sets. -/
theorem filter_filterMap_attributes {α : Type} (f : Series T k → Option α) (p : AttributeSet → Bool)
    (live : List (Series T k)) :
    (live.filterMap fun s => (f s).map (s.attributes, ·)).filter (fun e => p e.1) =
      (live.filter fun s => p s.attributes).filterMap fun s => (f s).map (s.attributes, ·) := by
  rw [List.filter_filterMap, List.filterMap_filter]
  refine List.filterMap_congr fun s _ => ?_
  cases hp : p s.attributes <;> cases hf : f s <;> simp [hp]

/-- Two delta collectors whose open cycles have the same recordings, of which one tracks the first
of the sets that the other tracks. -/
structure Abreast (coarse fine : Collector T k) (l l' : Ledger T) : Prop extends
    coarse.Narrows fine where
  coarse_routed : coarse.Routed l
  fine_routed : fine.Routed l'
  coarse_delta : coarse.config.temporality = .delta
  fine_delta : fine.config.temporality = .delta
  recordings : l.current.map (·.recording) = l'.current.map (·.recording)

namespace Abreast

variable {coarse fine : Collector T k} {l l' : Ledger T} (h : coarse.Abreast fine l l')

include h

/-- A set that both collectors track has the same recordings with both. -/
theorem received_of_ordinary {n : Nat × AttributeSet} (hn : n ∈ coarse.names)
    (hordinary : n.2 ≠ .overflow) :
    ∃ n' ∈ fine.names, n'.2 = n.2 ∧ received l'.current n'.1 = received l.current n.1 := by
  obtain ⟨n', hn', hset, -⟩ :=
    mem_ordinarySets.1 (h.subset (h.coarse_routed.mem_ordinarySets_of_ne hn hordinary))
  refine ⟨n', hn', hset, ?_⟩
  rw [h.fine_routed.received_of_ordinary hn' (hset ▸ hordinary),
    h.coarse_routed.received_of_ordinary hn hordinary, h.recordings, hset, h.setOf_eq]

variable (start time : Time)

/-- The further accounts are those of the sets that the first collector does not track. -/
theorem further_eq_filter :
    further (Metric.shown (coarse.collect start time).1) (fine.accounts start time) =
      (fine.accounts start time).filter fun e => !coarse.tracks e.1 := by
  rw [shown_collect h.coarse_routed.toFollows, further]
  refine List.filter_congr fun e he => congrArg (! ·) ?_
  obtain ⟨n', hn', hset'⟩ := h.fine_routed.exists_name_of_mem_accounts h.fine_delta he
  have hdigested : e.1.digested = true := hset' ▸ (h.fine_routed.proper n' hn').digested
  rw [Bool.eq_iff_iff, h.coarse_routed.proper.tracks_iff hdigested, List.any_map, List.any_eq_true]
  constructor
  · rintro ⟨d, hd, hmatch⟩
    obtain ⟨hordinary, hlist⟩ := of_decide_eq_true hmatch
    obtain ⟨n, hn, hset⟩ := h.coarse_routed.exists_name_of_mem_accounts h.coarse_delta hd
    rw [← h.coarse_routed.toList_inj h.coarse_delta hd hdigested hlist, ← hset]
    refine h.coarse_routed.mem_ordinarySets_of_ne hn fun hover => hordinary ?_
    exact congrArg (·.toList) (hset.symm.trans hover)
  · intro hmem
    obtain ⟨n, hn, hset, hne⟩ := mem_ordinarySets.1 hmem
    have hordinary : n.2 ≠ .overflow := fun hover => by
      rw [← hset, hover, AttributeSet.isProper_overflow.self] at hne
      cases hne
    -- the series has recordings with the other collector, and so with this one
    obtain ⟨m, hm, hmset, hreceived⟩ := h.received_of_ordinary hn hordinary
    have haccount : ∃ a, (m.2, a) ∈ fine.accounts start time := by
      rw [hmset, hset]
      exact ⟨e.2, he⟩
    rw [h.fine_routed.mem_accounts_iff h.fine_delta start time hm, hreceived,
      ← h.coarse_routed.mem_accounts_iff h.coarse_delta start time hn] at haccount
    obtain ⟨a, ha⟩ := haccount
    refine ⟨(n.2, a), ha, decide_eq_true ⟨fun hlist => hordinary ?_, congrArg (·.toList) hset⟩⟩
    exact h.coarse_routed.toList_inj h.coarse_delta ha rfl hlist

/-- The recordings of sets that the first collector does not track are, with the other collector,
parted among the series of such sets. -/
theorem perm_received_untracked :
    ((fine.live.filter fun s => !coarse.tracks s.attributes).map
        fun s => received l'.current s.id).flatten.Perm (coarse.untracked l) := by
  let beyond := fine.live.filter fun s => !coarse.tracks s.attributes
  let left := l'.current.filter fun e => !coarse.tracks (coarse.setOf e.recording)
  -- an entry is left over exactly if its series is beyond what the first collector tracks
  have hleft {e : Entry T} (he : e ∈ l'.current) {s : Series T k} (hs : s ∈ fine.live)
      (hid : e.series = s.id) :
      coarse.tracks s.attributes = coarse.tracks (coarse.setOf e.recording) := by
    have hname : s.name ∈ fine.names := List.mem_map_of_mem hs
    have hreach := h.fine_routed.untracked_of_reaches (fun _ => h.subset) he hname hid
    have htracks : coarse.tracks s.attributes = true ↔ s.attributes ∈ coarse.ordinarySets :=
      h.coarse_routed.proper.tracks_iff (h.fine_routed.proper s.name hname).digested
    rw [Bool.eq_iff_iff, htracks, h.coarse_routed.proper.tracks_iff (coarse.digested_setOf _),
      h.setOf_eq]
    exact not_iff_not.1 hreach
  have hreceived : beyond.map (fun s => received l'.current s.id) =
      (beyond.map (·.id)).map (received left) := by
    rw [List.map_map]
    refine List.map_congr_left fun s hs => ?_
    obtain ⟨hs, hbeyond⟩ := List.mem_filter.1 hs
    rw [Function.comp_apply, received_eq_map_filter, received_eq_map_filter, List.filter_filter]
    refine congrArg _ (List.filter_congr fun e he => ?_)
    by_cases hid : e.series = s.id
    · simpa [hid, ← hleft he hs hid] using hbeyond
    · simp [hid]
  have hids : (beyond.map (·.id)).Nodup :=
    h.fine_routed.distinct.live_ids.sublist (List.filter_sublist.map _)
  have hlive : ∀ e ∈ left, e.series ∈ beyond.map (·.id) := by
    intro e he
    obtain ⟨he, huntracked⟩ := List.mem_filter.1 he
    obtain ⟨s, hs, hid⟩ := h.fine_routed.live e he
    refine List.mem_map.2 ⟨s, List.mem_filter.2 ⟨hs, ?_⟩, hid⟩
    rwa [hleft he hs hid.symm]
  have hparts := perm_received hids hlive
  rw [hreceived, untracked, h.recordings, List.filter_map]
  exact hparts

variable [Quantity.Ranked T] [Quantity.Exact T] [Quantity.Modular T]
  (htimes : (l'.current.map (·.recording)).Pairwise (·.time < ·.time))

include htimes

/-- The further accounts, merged in any order, are what the recordings of the sets come to that the
first collector does not track. -/
theorem joinAll_further {as : List (Accumulation T k)}
    (has : as.Perm ((further (Metric.shown (coarse.collect start time).1)
      (fine.accounts start time)).map (·.2))) :
    (Accumulation.joinAll as).map (·.tally) = k.tally? (coarse.untracked l) := by
  let beyond := fine.live.filter fun s => !coarse.tracks s.attributes
  have htallies : (((fine.accounts start time).filter fun e => !coarse.tracks e.1).map (·.2)).map
      (fun a => some a.tally) = (beyond.filterMap fun s => s.yield.map (·.tally)).map some := by
    rw [accounts_delta h.fine_routed.distinct h.fine_routed.detached h.fine_delta, findings,
      filter_filterMap_attributes _ fun set => !coarse.tracks set, List.map_map, List.map_filterMap,
      List.map_filterMap]
    refine List.filterMap_congr fun s _ => ?_
    cases s.yield <;> rfl
  have hyields : beyond.map (fun s => s.yield.map (·.tally)) =
      (beyond.map fun s => received l'.current s.id).map k.tally? := by
    rw [List.map_map]
    exact List.map_congr_left fun s hs => h.fine_routed.yield_tally (List.mem_filter.1 hs).1
  rw [h.further_eq_filter start time] at has
  -- the further accounts are the yields of the series beyond, whose recordings are the untracked
  rw [Accumulation.tally_joinAll, k.mergeAll_of_perm (has.map _), htallies, k.mergeAll_filterMap,
    hyields, ← k.mergedTally?_eq_mergeAll]
  refine k.mergedTally?_of_perm h.perm_received_untracked (fun rs hrs => ?_) ?_
  · obtain ⟨s, -, rfl⟩ := List.mem_map.1 hrs
    exact htimes.sublist (received_sublist _ _)
  · rw [untracked, h.recordings]
    exact htimes.filter _

omit [Quantity.Ranked T] [Quantity.Exact T] [Quantity.Modular T] htimes in
/-- An ordinary point shows an account of the other collector. -/
theorem exists_account_of_ordinary {p : Point T k}
    (hp : p ∈ Metric.shown (coarse.collect start time).1) (hordinary : p.IsOrdinary) :
    ∃ e ∈ fine.accounts start time,
      p.attributes = e.1.toList ∧ p.reading = k.read e.2.tally := by
  obtain ⟨n, hn, a, ha, rfl, hne⟩ := h.coarse_routed.exists_name_of_mem_shown h.coarse_delta hp
  obtain ⟨n', hn', hset, hsame⟩ := h.received_of_ordinary hn (hne.1 hordinary)
  obtain ⟨a', ha'⟩ := (h.fine_routed.mem_accounts_iff h.fine_delta start time hn').2
    (hsame ▸ (h.coarse_routed.mem_accounts_iff h.coarse_delta start time hn).1 ⟨a, ha⟩)
  refine ⟨(n'.2, a'), ha', congrArg (·.toList) hset.symm, congrArg k.read ?_⟩
  rw [h.fine_routed.tally_of_mem_accounts h.fine_delta hn' ha', hsame]
  exact h.coarse_routed.tally_of_mem_accounts h.coarse_delta hn ha

/-- What one collection shows coarsens the accounts of the other. -/
theorem coarsens :
    Coarsens (Metric.shown (coarse.collect start time).1) (fine.accounts start time) := by
  let rest := further (Metric.shown (coarse.collect start time).1) (fine.accounts start time)
  have hjoin {as : List (Accumulation T k)} (has : as.Perm (rest.map (·.2))) :
      (Accumulation.joinAll as).map (·.tally) = k.tally? (coarse.untracked l) :=
    h.joinAll_further start time htimes has
  have hnone : rest = [] ↔ coarse.untracked l = [] := by
    rw [← List.map_eq_nil_iff (f := (·.2)), ← Accumulation.joinAll_eq_none,
      ← Option.map_eq_none_iff (f := (·.tally)), hjoin (.refl _), Kind.tally?_eq_none]
  -- ordinary points, the overflow point, and what that has to show
  refine ⟨fun p => h.exists_account_of_ordinary start time, ?_, fun p hp hpoint as has => ?_⟩
  · rw [Ne, hnone]
    constructor
    · rintro ⟨p, hp, hpoint⟩
      exact (h.coarse_routed.reading_of_overflow h.coarse_delta hp hpoint).1
    · exact h.coarse_routed.exists_overflow_point h.coarse_delta start time
  · obtain ⟨hne, hreading⟩ := h.coarse_routed.reading_of_overflow h.coarse_delta hp hpoint
    have hmerged := hjoin has
    rw [Kind.tally?, if_neg hne] at hmerged
    obtain ⟨a, ha, htally⟩ := Option.map_eq_some_iff.1 hmerged
    exact ⟨a, ha, hreading.trans (congrArg k.read htally.symm)⟩

end Abreast

/-! ## Over a run -/

section

variable [Quantity.Ranked T] [Quantity.Exact T] [Quantity.Modular T]

/-- **A limit loses detail, and no data.** Take two delta collectors of one kind that allow the same
keys and evict nothing, of which the first has the lower limit; any recordings and collections
carried out with both, in sets that equal themselves and at increasing times; and a collection of
each after them. The second one shows its accounts. The first one shows an account of the second in
each of its ordinary points; it has an overflow point if and only if the second has further
accounts, and that point shows what those come to when they are merged, in any order. -/
theorem limit_loses_no_data (sampling sampling' : SamplingPlan T) (stream stream' : Stream)
    {config config' : ReaderConfig} (hdelta : config.temporality = .delta)
    (hdelta' : config'.temporality = .delta) (hfilter : config.filter = config'.filter)
    (hidle : config.maxIdle = none) (hidle' : config'.maxIdle = none)
    (hlimit : config.limit ≤ config'.limit) {commands : List (Command T)}
    (hplain : ∀ command ∈ commands, command.IsPlain)
    (hreflexive : ∀ command ∈ commands, command.IsReflexive config.filter)
    (htimes : (commands.filterMap Command.recording?).Pairwise (·.time < ·.time))
    (start time : Time) :
    let coarse : Collector T k := ((new sampling stream config).run commands).2
    let fine : Collector T k := ((new sampling' stream' config').run commands).2
    let accounts := fine.accounts start time
    Metric.shown (fine.collect start time).1 = accounts.map (fun e => e.2.point e.1) ∧
      Coarsens (Metric.shown (coarse.collect start time).1) accounts := by
  intro coarse fine accounts
  have hfirst := Routed.new (k := k) sampling stream config
  have hfirst' := Routed.new (k := k) sampling' stream' config'
  have hfine := hfirst'.run hplain (hfilter ▸ hreflexive)
  have hcurrent := hfirst.current_ledger hplain
  have hcurrent' := hfirst'.current_ledger hplain
  -- both collectors ran the same commands, so they are abreast
  have habreast : coarse.Abreast fine _ _ :=
    { toNarrows := (Narrows.new sampling sampling' stream stream' hfilter hlimit).run hfirst hfirst'
        hidle hidle' hplain hreflexive
      coarse_routed := hfirst.run hplain hreflexive
      fine_routed := hfine
      coarse_delta := (congrArg ReaderConfig.temporality (config_run _ commands)).trans hdelta
      fine_delta := (congrArg ReaderConfig.temporality (config_run _ commands)).trans hdelta'
      recordings := hcurrent.trans hcurrent'.symm }
  refine ⟨shown_collect hfine.toFollows start time, habreast.coarsens start time ?_⟩
  rw [hcurrent']
  exact htimes.sublist (openRecordings_sublist commands)

end

/-- Three sets are recorded into, the first of them twice. -/
def threeSets : List (Command UInt64) :=
  [.record { value := 1, attributes := [⟨"a", .int 1⟩], time := 1 },
    .record { value := 5, attributes := [⟨"a", .int 2⟩], time := 2 },
    .record { value := 6, attributes := [⟨"a", .int 3⟩], time := 3 },
    .record { value := 4, attributes := [⟨"a", .int 1⟩], time := 4 }]

/-- A delta configuration with room for so many series. -/
def roomFor (limit : Nat) (limit_pos : 0 < limit) : ReaderConfig :=
  { (default : ReaderConfig) with temporality := .delta, limit, limit_pos }

/-- With room for one series the overflow point has the recordings of two sets; with room for two
series one of them is reported as such, and the overflow point has the other. -/
theorem limit_loses_no_data_of_three_sets :
    let coarse : Collector UInt64 .lastValue :=
      ((new .none default (roomFor 1 (by decide))).run threeSets).2
    let fine : Collector UInt64 .lastValue :=
      ((new .none default (roomFor 2 (by decide))).run threeSets).2
    let points := Metric.shown (coarse.collect 0 9).1
    (points.map (·.attributes.map (·.key)) = [["a"], ["otel.metric.overflow"]] ∧
        (further points (fine.accounts 0 9)).length = 2) ∧
      Coarsens points (fine.accounts 0 9) := by
  intro coarse fine points
  have hplain : ∀ command ∈ threeSets, command.IsPlain := by simp [threeSets, Command.IsPlain]
  have hreflexive : ∀ command ∈ threeSets, command.IsReflexive ⟨none⟩ := by decide +kernel
  have htimes : (threeSets.filterMap Command.recording?).Pairwise (·.time < ·.time) := by
    decide +kernel
  have hdelta : (roomFor 1 (by decide)).temporality = .delta := rfl
  have hdelta' : (roomFor 2 (by decide)).temporality = .delta := rfl
  have hcoarsens := (limit_loses_no_data (k := .lastValue) .none .none default default hdelta
    hdelta' rfl rfl rfl (by decide) hplain hreflexive htimes 0 9).2
  exact ⟨by decide +kernel, hcoarsens⟩

end Collector

end Metering
