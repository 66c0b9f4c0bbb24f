import Metering.Proofs.Interleaving.Waiting
import Metering.Proofs.Table.ByKey

/-!
# A collection with steps in between

Between the snapshot of a collection and its report the collector may change in every way that
recorders can change it. `Collecting` relates it, at any time in between, to the collector that the
snapshot was taken of: what was found so far stands under the sets of the series in the snapshot and
under no others (`Finds`), and those series are live until they are evicted. Recorders keep it so since
they only ever add series, under identities that the snapshot does not have (`Grows`). In the end the
report has the tallies of all that the journal says was drained (`Collecting.output`).
-/

namespace Metering

variable {T : Type} {k : Kind}

/-! ## Tables over a roll of names -/

/-- The keys of a table differ from each other and are sets of a roll of names. -/
structure Covered {α : Type} (t : Table AttributeSet α) (roll : List (Nat × AttributeSet)) : Prop where
  unique : t.Unique
  known : ∀ set ∈ t.keys, ∃ n ∈ roll, n.2 = set

namespace Covered

variable {α β : Type} {t : Table AttributeSet α} {roll : List (Nat × AttributeSet)}

/-- An empty table has no keys at all. -/
theorem empty : Covered ({} : Table AttributeSet α) roll := ⟨List.Pairwise.nil, nofun⟩

/-- One more entry under a set of the roll. -/
theorem upsert (h : Covered t roll) {n : Nat × AttributeSet} (hn : n ∈ roll)
    (f : Option α → α) : Covered (t.upsert n.2 f) roll := by
  refine ⟨h.unique.upsert n.2 f, fun set hset => ?_⟩
  rcases Table.mem_keys_upsert hset with hset | rfl
  · exact h.known set hset
  · exact ⟨n, hn, rfl⟩

/-- Entries for several sets of the roll. -/
theorem upsertAll (h : Covered t roll) (f : β → Option α → α) {values : List (AttributeSet × β)}
    (hvalues : ∀ v ∈ values, ∃ n ∈ roll, n.2 = v.1) : Covered (t.upsertAll f values) roll := by
  refine ⟨h.unique.upsertAll f values, fun set hset => ?_⟩
  rcases Table.mem_keys_upsertAll hset with hset | hset
  · exact h.known set hset
  · obtain ⟨v, hv, rfl⟩ := List.mem_map.1 hset
    exact hvalues v hv

/-- Nothing stands under a set that the roll does not have. -/
theorem get?_eq_none (h : Covered t roll) {set : AttributeSet}
    (hnew : ∀ n ∈ roll, (n.2 == set) = false) : t.get? set = none := by
  refine Table.get?_eq_none fun other hother => ?_
  obtain ⟨n, hn, rfl⟩ := h.known other hother
  exact hnew n hn

end Covered

variable [Quantity T]

namespace Series

/-! ## What drains find, set by set -/

/-- The findings make a table with the series, less those in which nothing was found. -/
theorem findings_eq_filterMap (series : List (Series T k)) :
    (⟨findings series⟩ : Table AttributeSet (Accumulation T k)) =
      (⟨series.map fun s => (s.attributes, s)⟩ : Table AttributeSet (Series T k)).filterMap yield := by
  rw [Table.filterMap, List.filterMap_map]
  rfl

/-- Every finding is one of a series, and stands under its set. -/
theorem mem_findings {series : List (Series T k)} {e : AttributeSet × Accumulation T k}
    (h : e ∈ findings series) : ∃ s ∈ series, s.attributes = e.1 := by
  obtain ⟨s, hs, hse⟩ := List.mem_filterMap.1 h
  obtain ⟨a, -, rfl⟩ := Option.map_eq_some_iff.1 hse
  exact ⟨s, hs, rfl⟩

variable {series : List (Series T k)}

omit [Quantity T] in
/-- Series with different sets make a table with unique keys. -/
theorem unique_rows (hsets : series.Pairwise fun s t => (s.attributes == t.attributes) = false) :
    (⟨series.map fun s => (s.attributes, s)⟩ : Table AttributeSet (Series T k)).Unique := by
  rw [Table.Unique, Table.keys, List.map_map]
  exact List.pairwise_map.2 hsets

/-- The findings of series with different sets have unique keys. -/
theorem unique_findings (hsets : series.Pairwise fun s t => (s.attributes == t.attributes) = false) :
    (⟨findings series⟩ : Table AttributeSet (Accumulation T k)).Unique := by
  rw [findings_eq_filterMap]
  exact (unique_rows hsets).filterMap yield

/-- Under the set of a series stands what was found in it. -/
theorem get?_findings (hsets : series.Pairwise fun s t => (s.attributes == t.attributes) = false)
    (hself : ∀ s ∈ series, (s.attributes == s.attributes) = true) {s : Series T k}
    (hs : s ∈ series) :
    (⟨findings series⟩ : Table AttributeSet (Accumulation T k)).get? s.attributes = s.yield := by
  rw [findings_eq_filterMap, (unique_rows hsets).get?_filterMap, Table.get?_rows hsets hself hs]
  rfl

/-- Nothing was found under a set that no series has. -/
theorem get?_findings_of_new {set : AttributeSet}
    (hnew : ∀ s ∈ series, (s.attributes == set) = false) :
    (⟨findings series⟩ : Table AttributeSet (Accumulation T k)).get? set = none := by
  refine Table.get?_eq_none fun other hother => ?_
  obtain ⟨e, he, rfl⟩ := List.mem_map.1 hother
  obtain ⟨s, hs, hse⟩ := mem_findings he
  rw [← hse]
  exact hnew s hs

end Series

/-! ## What was found -/

/-- What a collection found in series of a roll is what the journal says it drained. -/
structure Finds (fresh : Table AttributeSet (Accumulation T k)) (roll : List (Nat × AttributeSet))
    (j : Journal T) : Prop where
  covered : Covered fresh roll
  tally : ∀ n ∈ roll, (fresh.get? n.2).map (·.tally) = k.tally? (j n.1).drained

namespace Finds

variable {fresh : Table AttributeSet (Accumulation T k)} {roll : List (Nat × AttributeSet)}
  {j j' : Journal T}

/-- What was found does not depend on what waits or was reported before. -/
theorem congr (h : Finds fresh roll j) (hdrained : ∀ id, (j' id).drained = (j id).drained) :
    Finds fresh roll j' where
  covered := h.covered
  tally n hn := by
    rw [hdrained]
    exact h.tally n hn

/-- What waits in some series of the roll is found, if nothing was found in them before. -/
theorem enter (h : Finds fresh roll j) {f : Accumulation T k → Option (Accumulation T k) → Accumulation T k}
    (hf : ∀ a, f a none = a) {series : List (Series T k)}
    (hseries : ∀ s ∈ series, s.name ∈ roll ∧ s.handle.Holds (j s.id).waiting ∧ (j s.id).drained = [])
    (hsets : series.Pairwise fun s t => (s.attributes == t.attributes) = false)
    (hself : ∀ s ∈ series, (s.attributes == s.attributes) = true)
    (hdrain : ∀ s ∈ series, j' s.id = (j s.id).drain)
    (hrest : ∀ n ∈ roll, (∃ s ∈ series, s.name = n) ∨
      (∀ s ∈ series, (s.attributes == n.2) = false) ∧ j' n.1 = j n.1) :
    Finds (fresh.upsertAll f (Series.findings series)) roll j' := by
  refine ⟨h.covered.upsertAll f fun v hv => ?_, fun n hn => ?_⟩
  · obtain ⟨s, hs, hsv⟩ := Series.mem_findings hv
    exact ⟨s.name, (hseries s hs).1, hsv⟩
  · have hfound := h.tally n hn
    -- the name is that of a series that was drained just now, or of none of them
    rw [Table.get?_upsertAll _ (Series.unique_findings hsets)]
    rcases hrest n hn with ⟨s, hs, rfl⟩ | ⟨hnew, hsame⟩
    · -- nothing was found in the series before, so that what waits in it is all there is
      obtain ⟨-, hholds, hnone⟩ := hseries s hs
      have hyield : s.yield.map (·.tally) = k.tally? (j s.id).waiting :=
        hholds.drain_tally s.attributes
      rw [show s.name.1 = s.id from rfl, show s.name.2 = s.attributes from rfl] at hfound ⊢
      rw [hnone, Kind.tally?_nil, Option.map_eq_none_iff] at hfound
      rw [Series.get?_findings hsets hself hs, hfound, hdrain s hs, Passage.drained_drain hnone,
        ← hyield]
      cases s.yield with
      | none => rfl
      | some a => exact congrArg (fun a => some a.tally) (hf a)
    · rw [Series.get?_findings_of_new hnew, hsame]
      exact hfound

end Finds

namespace Collector

/-! ## What is kept from one collection to the next -/

/-- Something is kept of series in a roll only; cumulatively, it is what collections reported of
them. -/
structure Keeps (c : Collector T k) (roll : List (Nat × AttributeSet)) (j : Journal T) : Prop where
  covered : Covered c.retained roll
  cumulative : c.config.temporality = .cumulative →
    ∀ n ∈ roll, (c.kept n.2).cumulative.map (·.tally) = k.mergedTally? (j n.1).reported

namespace Keeps

variable {c c' : Collector T k} {roll : List (Nat × AttributeSet)} {j j' : Journal T}

/-- A new collector keeps nothing, and nothing was reported. -/
theorem new (sampling : SamplingPlan T) (stream : Stream) (config : ReaderConfig) :
    (Collector.new sampling stream config : Collector T k).Keeps [] fun _ => {} :=
  ⟨.empty, fun _ => nofun⟩

/-- What is kept from one collection to the next depends on nothing that is under way. -/
theorem congr (h : c.Keeps roll j) (hretained : c'.retained = c.retained)
    (hconfig : c'.config = c.config) (hreported : ∀ id, (j' id).reported = (j id).reported) :
    c'.Keeps roll j' where
  covered := hretained ▸ h.covered
  cumulative htemporality n hn := by
    rw [kept, hretained, hreported]
    exact h.cumulative (hconfig ▸ htemporality) n hn

/-- Nothing is kept of series that recorders bring in. -/
theorem grows (h : c.Keeps c.names j) (hgrows : c.Grows c') (hdistinct : c'.Distinct)
    (hunissued : ∀ id, c.nextId ≤ id → (j id).reported.flatten = []) : c'.Keeps c'.names j := by
  have hcovered : Covered c'.retained c.names := hgrows.retained ▸ h.covered
  refine ⟨⟨hcovered.unique, fun set hset => ?_⟩, fun htemporality n hn => ?_⟩
  · obtain ⟨n, hn, rfl⟩ := hcovered.known set hset
    exact ⟨n, hgrows.stays n hn, rfl⟩
  -- a series of before keeps what it kept; of one that came in, nothing was reported or kept
  · by_cases hold : n ∈ c.names
    · rw [kept, hgrows.retained]
      exact h.cumulative (hgrows.config ▸ htemporality) n hold
    · have hnext : c.nextId ≤ n.1 := (hgrows.names n hn).resolve_left hold
      have hnone : c'.retained.get? n.2 = none := by
        refine hcovered.get?_eq_none fun m hm => ?_
        exact hdistinct.sets_ne (hgrows.stays m hm) hn fun heq => hold (heq ▸ hm)
      rw [kept, hnone, Kind.mergedTally?_eq_none.2 (hunissued n.1 hnext)]
      rfl

/-- Counting the idle collections of a series leaves alone what was reported. -/
theorem tick (h : c.Keeps roll j) {s : Series T k} (hs : s.name ∈ roll)
    (hretained : c'.retained = c.retained.upsert s.attributes s.tick)
    (hconfig : c'.config = c.config) (hreported : ∀ id, (j' id).reported = (j id).reported) :
    c'.Keeps roll j' where
  covered := hretained ▸ h.covered.upsert hs s.tick
  cumulative htemporality n hn := by
    rw [hreported, ← h.cumulative (hconfig ▸ htemporality) n hn, kept, hretained,
      Table.get?_upsert, kept]
    split
    · rename_i hset
      rw [← c.retained.get?_congr hset]
      rfl
    · rfl

end Keeps

/-! ## Series that go away -/

omit [Quantity T] in
/-- Members that are all values of a function are so of a list. -/
theorem exists_map_eq {α β : Type} {f : α → β} {p : α → Prop} {l : List β}
    (h : ∀ b ∈ l, ∃ a, p a ∧ f a = b) : ∃ as : List α, (∀ a ∈ as, p a) ∧ as.map f = l := by
  induction l with
  | nil => exact ⟨[], nofun, rfl⟩
  | cons b rest ih =>
    obtain ⟨a, ha, rfl⟩ := h b List.mem_cons_self
    obtain ⟨as, has, rfl⟩ := ih fun b' hb' => h b' (List.mem_cons_of_mem _ hb')
    exact ⟨a :: as, List.forall_mem_cons.2 ⟨ha, has⟩, rfl⟩

omit [Quantity T] in
/-- A name that is live is found by its identity. -/
theorem any_of_mem_names {c : Collector T k} {n : Nat × AttributeSet} (h : n ∈ c.names) :
    c.live.any (·.id == n.1) = true := by
  obtain ⟨s, hs, rfl⟩ := List.mem_map.1 h
  exact List.any_eq_true.2 ⟨s, hs, beq_self_eq_true s.id⟩

/-- A collector without some live series. -/
def without (c : Collector T k) (gone : List (Series T k)) : Collector T k :=
  { c with live := c.live.filter fun s => !gone.any (·.id == s.id) }

omit [Quantity T] in
/-- The names that are left were there before. -/
theorem names_without (c : Collector T k) (gone : List (Series T k)) :
    (c.without gone).names.Sublist c.names :=
  List.filter_sublist.map _

omit [Quantity T] in
/-- A series that went away is not live. -/
theorem not_live_without (c : Collector T k) {gone : List (Series T k)} {s : Series T k}
    (hs : s ∈ gone) : ¬ (c.without gone).live.any (·.id == s.id) = true := by
  intro hany
  obtain ⟨t, ht, htid⟩ := List.any_eq_true.1 hany
  have hnot := (List.mem_filter.1 ht).2
  rw [Bool.not_eq_true', List.any_eq_false] at hnot
  exact hnot s hs (by simpa using (beq_iff_eq.1 htid).symm)

omit [Quantity T] in
/-- Series go away that nobody has in hand. -/
theorem InHands.without {c : Collector T k} {hands : Nat → Nat} (h : c.InHands hands)
    (hdistinct : c.Distinct) {gone : List (Series T k)}
    (hgone : ∀ s ∈ gone, s ∈ c.live ∧ s.holders = 0) : (c.without gone).InHands hands := by
  refine ⟨fun s hs => h.holders s (List.mem_filter.1 hs).1, fun id hid => ?_⟩
  obtain ⟨s, hs, rfl⟩ := h.live id hid
  refine ⟨s, List.mem_filter.2 ⟨hs, ?_⟩, rfl⟩
  rw [Bool.not_eq_true', List.any_eq_false]
  intro t ht htid
  obtain ⟨htlive, hnone⟩ := hgone t ht
  -- two live series with one identity are the same, and that one went away
  have hts : t = s := hdistinct.id_inj htlive hs (by simpa using htid)
  rw [← h.holders s hs, ← hts, hnone] at hid
  exact Nat.lt_irrefl 0 hid

/-- A live series goes away, or its set and its passage are not those of one that does. -/
theorem Sound.without_cases {c : Collector T k} {j : Journal T} (h : c.Sound j)
    {gone : List (Series T k)} (hgone : ∀ s ∈ gone, s ∈ c.live) {n : Nat × AttributeSet}
    (hn : n ∈ c.names) :
    (∃ s ∈ gone, s.name = n) ∨
      n ∈ (c.without gone).names ∧ (∀ s ∈ gone, (s.attributes == n.2) = false) ∧
        j.settle (c.without gone) n.1 = j n.1 := by
  by_cases hmem : ∃ s ∈ gone, s.name = n
  · exact .inl hmem
  · obtain ⟨s, hs, rfl⟩ := List.mem_map.1 hn
    have hlive : s ∈ (c.without gone).live := by
      refine List.mem_filter.2 ⟨hs, ?_⟩
      rw [Bool.not_eq_true', List.any_eq_false]
      intro t ht htid
      exact hmem ⟨t, ht, congrArg Series.name (h.id_inj (hgone t ht) hs (by simpa using htid))⟩
    refine .inr ⟨List.mem_map_of_mem hlive, fun t ht => ?_, ?_⟩
    · exact h.sets_ne (List.mem_map_of_mem (hgone t ht)) hn fun heq => hmem ⟨t, ht, heq⟩
    · exact if_pos (any_of_mem_names (List.mem_map_of_mem hlive))

/-! ## A collection under way -/

/-- How a collection is doing, and the collector with it, that began with the series of `c₀`. -/
structure Collecting (c₀ : Collector T k) (j₀ : Journal T) (c : Collector T k) (cycle : Cycle T k)
    (j : Journal T) : Prop where
  begun : c₀.Sound j₀
  sound : c.Sound j
  precedes : c₀.Precedes c
  reported : ∀ id, (j id).reported = (j₀ id).reported
  keeps : c.Keeps c₀.names j
  finds : Finds cycle.fresh c₀.names j
  drained : ∀ id, (j id).drained ≠ [] → ∃ n ∈ c₀.names, n.1 = id
  /-- Series in which something was found are not idle. -/
  idle : ∀ n ∈ c.names, (j n.1).drained ≠ [] → (c.kept n.2).idle = 0
  nodup : cycle.pending.Nodup
  pending : ∀ id ∈ cycle.pending, (∃ n ∈ c₀.names, n.1 = id) ∧ (j id).drained = []
  stays : ∀ n ∈ c₀.names, n ∈ c.names ∨ n.2 ∈ cycle.evicted
  gone : ∀ set ∈ cycle.evicted, ∃ n ∈ c₀.names, n.2 = set ∧ n ∉ c.names

/-- A snapshot begins a collection. -/
theorem collecting_snapshot {c : Collector T k} {j : Journal T} (h : c.Sound j)
    (hkeeps : c.Keeps c.names j) (hdrained : ∀ id, (j id).drained = []) (start time : Time) :
    Collecting c j (c.beginCycle start time).2 (c.beginCycle start time).1 j where
  begun := h
  sound := h.of_live_eq rfl rfl rfl
  precedes := (Precedes.refl c).of_names_eq rfl rfl
  reported _ := rfl
  keeps := hkeeps.congr rfl rfl fun _ => rfl
  finds := ⟨.empty, fun n _ => by rw [hdrained n.1]; rfl⟩
  drained id hid := absurd (hdrained id) hid
  idle n _ hid := absurd (hdrained n.1) hid
  nodup := h.live_ids
  pending id hid := by
    obtain ⟨s, hs, rfl⟩ := List.mem_map.1 hid
    exact ⟨⟨s.name, List.mem_map_of_mem hs, rfl⟩, hdrained s.id⟩
  stays n hn := .inl hn
  gone := nofun

namespace Collecting

variable {c₀ c c' : Collector T k} {j₀ j : Journal T} {cycle : Cycle T k}

/-- As long as nothing was evicted, the series of the snapshot are live. -/
theorem mem_names (h : Collecting c₀ j₀ c cycle j) (hevicted : cycle.evicted = [])
    {n : Nat × AttributeSet} (hn : n ∈ c₀.names) : n ∈ c.names :=
  (h.stays n hn).resolve_right (hevicted ▸ List.not_mem_nil)

/-- Series that came in after the snapshot have identities that it does not have. -/
theorem mem_names_of_grows (h : Collecting c₀ j₀ c cycle j) (hgrows : c.Grows c')
    {n m : Nat × AttributeSet} (hn : n ∈ c'.names) (hm : m ∈ c₀.names) (hid : n.1 = m.1) :
    n ∈ c.names := by
  have hlt := h.begun.lt_nextId m hm
  have hle := h.precedes.nextId_le
  refine (hgrows.names n hn).resolve_right fun hnew => ?_
  omega

/-- What recorders do in between. -/
theorem move (h : Collecting c₀ j₀ c cycle j) {move : Move T} (hreflexive : move.IsReflexive)
    (hlive : ∀ id ∈ move.series?, ∃ s ∈ c.live, s.id = id) :
    Collecting c₀ j₀ (c.move move) cycle (j.move move) := by
  have hgrows : c.Grows (c.move move) := c.grows_move move
  have hdrained : ∀ id, (j.move move id).drained = (j id).drained := j.drained_move move
  -- by fields; what concerns live series holds of new ones, as they are none of the snapshot
  refine {
    begun := h.begun
    sound := h.sound.move hreflexive hlive
    precedes := h.precedes.trans hgrows.toPrecedes
    reported := fun id => (j.reported_move move id).trans (h.reported id)
    keeps := h.keeps.congr hgrows.retained hgrows.config (j.reported_move move)
    finds := h.finds.congr hdrained
    drained := fun id hid => h.drained id (hdrained id ▸ hid)
    idle := fun n hn hid => ?_
    nodup := h.nodup
    pending := fun id hid => ?_
    stays := fun n hn => (h.stays n hn).imp_left (hgrows.stays n)
    gone := fun set hset => ?_ }
  · rw [hdrained] at hid
    obtain ⟨m, hm, hmid⟩ := h.drained n.1 hid
    rw [kept, hgrows.retained]
    exact h.idle n (h.mem_names_of_grows hgrows hn hm hmid.symm) hid
  · rw [hdrained]
    exact h.pending id hid
  · obtain ⟨n, hn, hnset, hgone⟩ := h.gone set hset
    exact ⟨n, hn, hnset, fun hn' => hgone (h.mem_names_of_grows hgrows hn' hn rfl)⟩

/-! ## Draining -/

/-- A drain finds what waits in a series of the snapshot. -/
theorem drainSeries (h : Collecting c₀ j₀ c cycle j) (hevicted : cycle.evicted = []) {id : Nat}
    (hid : id ∈ cycle.pending) :
    let next := c.drainSeries { cycle with pending := cycle.pending.erase id } id
    Collecting c₀ j₀ next.2 next.1 (j.drain id) ∧ next.1.evicted = [] := by
  intro next
  obtain ⟨⟨n, hn, hnid⟩, hnone⟩ := h.pending id hid
  have hlive : n ∈ c.names := h.mem_names hevicted hn
  obtain ⟨s, hs, rfl⟩ := List.mem_map.1 hlive
  obtain rfl : s.id = id := hnid
  have hself : (s.attributes == s.attributes) = true := h.sound.self_beq hs
  -- the other live series are told apart from this one by their sets and identities
  have hother : ∀ m ∈ c.names, m ≠ s.name → (s.attributes == m.2) = false ∧ m.1 ≠ s.id := by
    intro m hm hne
    constructor
    · exact h.sound.sets_ne hlive hm hne.symm
    · exact fun hid => hne (List.inj_on_of_nodup_map h.sound.ids hm hlive hid)
  have hdrain : next =
      ({ cycle with
          pending := cycle.pending.erase s.id
          fresh := cycle.fresh.upsertAll (fun a _ => a) (Series.findings [s]) },
        { c.updateSeries s.id fun t => { t with handle := s.drained.handle } with
          retained := c.retained.upsert s.attributes s.tick }) := by
    rw [Series.findings_cons, Series.findings, List.filterMap_nil, List.append_nil]
    exact drainSeries_of_mem h.sound.live_ids _ hs
  have hnames : next.2.names = c.names := by
    rw [hdrain]
    exact names_updateSeries c s.id fun _ => rfl
  have hretained : next.2.retained = c.retained.upsert s.attributes s.tick := by
    rw [hdrain]
  have hfresh : next.1.fresh = cycle.fresh.upsertAll (fun a _ => a) (Series.findings [s]) := by
    rw [hdrain]
  have hframe : next.2.frame = c.frame := frame_drainSeries c _ s.id
  have hevicted' : next.1.evicted = cycle.evicted := by rw [hdrain]
  have hpending' : next.1.pending = cycle.pending.erase s.id := by rw [hdrain]
  refine ⟨{
    begun := h.begun
    sound := by rw [hdrain]; exact h.sound.drain hs _
    precedes := h.precedes.of_names_eq hnames (congrArg Frame.nextId hframe)
    reported := fun id => (j.reported_drain s.id id).trans (h.reported id)
    keeps := h.keeps.tick hn hretained (congrArg (·.config) hframe) (j.reported_drain s.id)
    finds := ?_
    drained := fun id hid => ?_
    idle := fun m hm hid => ?_
    nodup := hpending' ▸ h.nodup.erase s.id
    pending := fun id hid => ?_
    stays := by rw [hnames, hevicted']; exact h.stays
    gone := by rw [hnames, hevicted']; exact h.gone }, hevicted'.trans hevicted⟩
  · rw [hfresh]
    refine h.finds.enter (fun _ => rfl) ?_ (List.pairwise_singleton _ _) ?_ ?_ fun m hm => ?_
    · simpa using ⟨hn, h.sound.holds s hs, hnone⟩
    · simpa using hself
    · simpa using j.drain_self s.id
    · by_cases hms : m = s.name
      · exact .inl ⟨s, List.mem_singleton_self s, hms.symm⟩
      · obtain ⟨hset, hid⟩ := hother m (h.mem_names hevicted hm) hms
        exact .inr ⟨by simpa using hset, j.drain_of_ne hid⟩
  · by_cases hids : id = s.id
    · exact ⟨s.name, hn, hids.symm⟩
    · rw [j.drain_of_ne hids] at hid
      exact h.drained id hid
  -- the idle count of the drained series was set to zero, and that of others is as it was
  · rw [hnames] at hm
    rw [kept, hretained, Table.get?_upsert]
    by_cases hms : m = s.name
    · subst hms
      change (j.drain s.id s.id).drained ≠ [] at hid
      rw [j.drain_self, Passage.drained_drain hnone] at hid
      rw [if_pos (by exact hself), Option.getD_some]
      exact s.idle_tick (h.sound.holds s hs) hid _
    · obtain ⟨hset, hids⟩ := hother m hm hms
      rw [j.drain_of_ne hids] at hid
      rw [if_neg (by simp [hset])]
      exact h.idle m hm hid
  · rw [hpending', h.nodup.mem_erase_iff] at hid
    rw [j.drain_of_ne hid.1]
    exact h.pending id hid.2

/-! ## Evicting -/

/-- Series that nothing was found in so far go away, and what waits in them is found. -/
theorem evict (h : Collecting c₀ j₀ c cycle j) (hevicted : cycle.evicted = [])
    (hpending : cycle.pending = []) {gone : List (Series T k)}
    (hgone : ∀ s ∈ gone, s ∈ c.live ∧ s.name ∈ c₀.names ∧ (j s.id).drained = [])
    (hsets : gone.Pairwise fun s t => (s.attributes == t.attributes) = false) :
    Collecting c₀ j₀ (c.without gone)
      { cycle with
        fresh := cycle.fresh.upsertAll (fun late old => Accumulation.join old late)
          (Series.findings gone)
        evicted := gone.map (·.attributes) }
      (j.settle (c.without gone)) := by
  have hlive : ∀ s ∈ gone, s ∈ c.live := fun s hs => (hgone s hs).1
  have hcases (n : Nat × AttributeSet) (hn : n ∈ c.names) := h.sound.without_cases hlive hn
  refine {
    begun := h.begun
    sound := h.sound.settle List.filter_sublist rfl rfl
    precedes := ⟨h.precedes.nextId_le, fun n hn =>
      h.precedes.names n ((c.names_without gone).subset hn)⟩
    reported := fun id => (j.reported_settle _ id).trans (h.reported id)
    keeps := h.keeps.congr rfl rfl (j.reported_settle _)
    finds := ?_
    drained := fun id hid => ?_
    idle := fun n hn hid => ?_
    nodup := h.nodup
    pending := by rw [hpending]; exact nofun
    stays := fun n hn => ?_
    gone := fun set hset => ?_ }
  · show Finds (cycle.fresh.upsertAll (fun late old => Accumulation.join old late) _) _ _
    refine h.finds.enter (fun _ => rfl) (fun s hs => ?_) hsets (fun s hs => ?_) (fun s hs => ?_)
      fun n hn => ?_
    · exact ⟨(hgone s hs).2.1, h.sound.holds s (hlive s hs), (hgone s hs).2.2⟩
    · exact h.sound.self_beq (hlive s hs)
    · exact if_neg (c.not_live_without hs)
    · exact (hcases n (h.mem_names hevicted hn)).imp_right fun hrest => ⟨hrest.2.1, hrest.2.2⟩
  · by_cases hany : (c.without gone).live.any (·.id == id) = true
    · rw [Journal.settle, if_pos hany] at hid
      exact h.drained id hid
    · rw [Journal.settle, if_neg hany] at hid
      by_cases hnone : (j id).drained = []
      · -- something waits in a live series that goes away
        rw [Passage.drained_drain hnone] at hid
        obtain ⟨s, hs, rfl⟩ := h.sound.live id hid
        rcases hcases s.name (List.mem_map_of_mem hs) with ⟨t, ht, htname⟩ | ⟨hmem, -⟩
        · exact ⟨t.name, (hgone t ht).2.1, congrArg Prod.fst htname⟩
        · exact absurd (any_of_mem_names hmem) hany
      · exact h.drained id hnone
  · rcases hcases n ((c.names_without gone).subset hn) with ⟨s, hs, rfl⟩ | ⟨-, -, hsettle⟩
    · exact absurd (any_of_mem_names hn) (c.not_live_without hs)
    · rw [hsettle] at hid
      exact h.idle n ((c.names_without gone).subset hn) hid
  · rcases hcases n (h.mem_names hevicted hn) with ⟨s, hs, rfl⟩ | ⟨hmem, -⟩
    · exact .inr (List.mem_map.2 ⟨s, hs, rfl⟩)
    · exact .inl hmem
  -- what was evicted had the set of one of the series that went away
  · obtain ⟨s, hs, rfl⟩ := List.mem_map.1 hset
    exact ⟨s.name, (hgone s hs).2.1, rfl, fun hmem =>
      c.not_live_without hs (any_of_mem_names hmem)⟩

/-- The series that were idle for too long are among those of the snapshot, and nothing was found in
them. -/
theorem exists_victims (h : Collecting c₀ j₀ c cycle j) (hevicted : cycle.evicted = []) {limit : Nat}
    (hlimit : limit ≠ 0) :
    ∃ victims : List (Series T k),
      (∀ s ∈ victims, s ∈ c.live ∧ s.name ∈ c₀.names ∧ (j s.id).drained = []) ∧
        victims.map (·.attributes) = c.idleSeries limit := by
  -- every set that is idle for too long stands for one series that is live since the snapshot
  refine exists_map_eq fun set hset => ?_
  obtain ⟨e, he, rfl⟩ := List.mem_map.1 hset
  obtain ⟨he, hidle⟩ := List.mem_filter.1 he
  obtain ⟨n, hn, hnset⟩ := h.keeps.covered.known e.1 (List.mem_map_of_mem he)
  have hlive : n ∈ c.names := h.mem_names hevicted hn
  have hkept : c.kept n.2 = e.2 := by
    have hself : (e.1 == e.1) = true := hnset ▸ h.begun.reflexive n hn
    rw [kept, hnset, h.keeps.covered.unique.get?_of_mem hself he, Option.getD_some]
  obtain ⟨s, hs, rfl⟩ := List.mem_map.1 hlive
  refine ⟨s, ⟨hs, hn, ?_⟩, hnset⟩
  by_contra hdrained
  have hzero := h.idle s.name hlive hdrained
  have hle : limit ≤ e.2.idle := by simpa using hidle
  rw [hkept] at hzero
  omega

/-- The eviction of a collection finds what waits in the series that it takes away, and takes away none
that is in hand. -/
theorem evictIdle (h : Collecting c₀ j₀ c cycle j) (hevicted : cycle.evicted = [])
    (hpending : cycle.pending = []) :
    Collecting c₀ j₀ (c.evictIdle cycle).2 (c.evictIdle cycle).1 (j.settle (c.evictIdle cycle).2) ∧
      (c.evictIdle cycle).1.pending = [] ∧
      ∀ hands, c.InHands hands → (c.evictIdle cycle).2.InHands hands := by
  unfold Collector.evictIdle
  cases hidle : c.config.maxIdle with
  | none =>
    refine ⟨?_, hpending, fun hands hhands => hhands⟩
    rw [h.sound.settle_eq]
    exact h
  | some limit =>
    have hlimit : limit ≠ 0 := fun hzero => c.config.maxIdle_ne_zero (hzero ▸ hidle)
    obtain ⟨victims, hvictims, hidleSets⟩ := h.exists_victims hevicted hlimit
    have hsets : victims.Pairwise fun s t => (s.attributes == t.attributes) = false := by
      have hkeys : (c.idleSeries limit).Pairwise fun a b => (a == b) = false :=
        h.keeps.covered.unique.sublist (List.filter_sublist.map _)
      rwa [← hidleSets, List.pairwise_map] at hkeys
    have hself : ∀ s ∈ victims, (s.attributes == s.attributes) = true := fun s hs =>
      h.sound.self_beq (hvictims s hs).1
    have hids : victims.Pairwise fun s t => s.id ≠ t.id := by
      refine hsets.imp_of_mem fun {s t} hs ht hset hid => ?_
      rw [h.sound.id_inj (hvictims s hs).1 (hvictims t ht).1 hid, hself t ht] at hset
      cases hset
    have hunheld := h.evict hevicted hpending
      -- of those that are to go, only the ones go that nobody holds
      (fun s hs => hvictims s (List.mem_filter.1 hs).1) (hsets.filter (·.holders == 0))
    have hfold := foldl_evict h.sound.toDistinct cycle (fun s hs => (hvictims s hs).1) hself hids
    rw [hevicted, List.nil_append] at hfold
    dsimp only
    rw [← hidleSets, hfold]
    refine ⟨hunheld, hpending, fun hands hhands => hhands.without h.sound.toDistinct fun s hs => ?_⟩
    obtain ⟨hvictim, hunused⟩ := List.mem_filter.1 hs
    exact ⟨(hvictims s hvictim).1, by simpa using hunused⟩

end Collecting

end Collector

end Metering
