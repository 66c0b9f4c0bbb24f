import Metering.Proofs.Attribute.Identity
import Metering.Proofs.Attribute.LastValue
import Metering.Proofs.Collector.Positions
import Metering.Proofs.Reservoir

/-!
# Where exemplars come from

Each exemplar in a delta report is one recording of the open cycle, and no recording is two exemplars
(`exemplars_stem_from_recordings`). Three facts carry this. A reservoir keeps nothing more often than
it was offered, and a drain empties it, so what it holds was offered since the last collection. The
position of a recording in the run tells it from others that are alike. And the name of a series stays
the same while it is live, so the point of a recording has the set that the recording looked for,
unless that was the overflow series; what the point lacks is left to the exemplar.
-/

namespace Metering

variable {T : Type} {k : Kind} [Quantity T]

omit [Quantity T] in
/-- The exemplar beside a point shows the recording, with the attributes that the point lacks. -/
structure Recording.Shown (r : Recording T) (p : Point T k) (e : Exemplar T) : Prop where
  value : e.value = r.value
  time : e.time = r.time
  trace : e.trace = if r.span.isValid && r.span.isSampled then r.span.trace else 0
  span : e.span = if r.span.isValid && r.span.isSampled then r.span.span else 0
  attributes : e.attributes = r.attributes.filter fun a => !p.attributes.any (·.key == a.key)

theorem Recording.shown_exemplar (r : Recording T) (set : AttributeSet) (a : Accumulation T k) :
    r.Shown (a.point set) (r.exemplar set) :=
  ⟨rfl, rfl, rfl, rfl, rfl⟩

namespace Collector

/-- The exemplar beside a point of the next collection stems from the command at a position of the
run: one after the last collection, which recorded into the series of the point and was let through.
If it recorded by attributes, the last value of each of their keys is in the point or the exemplar. -/
structure StemsFrom (first : Collector T k) (commands : List (Command T)) (p : Point T k)
    (e : Exemplar T) (n : Nat) : Prop where
  inOpenCycle : InOpenCycle commands n
  exists_recording : ∃ s ∈ (first.run commands).2.live, ∃ r, p.attributes = s.attributes.toList ∧
    first.entryAt commands n = some ⟨s.id, r⟩ ∧ first.sampling.filter.accepts r.span = true ∧
    r.Shown p e
  complete : ∀ r, commands[n]? = some (.record r) →
    p.attributes ≠ AttributeSet.overflow.toList →
    ∀ key, lastValue r.attributes key = (lastValue p.attributes key).or (lastValue e.attributes key)

/-! ## The series of a recording -/

/-- What was acquired has the attributes that were looked for or is the overflow series. -/
theorem toList_of_acquire (c : Collector T k) (set : AttributeSet) :
    ∃ n ∈ (c.acquire set).2.names, n.1 = (c.acquire set).1 ∧
      (n.2.toList = set.toList ∨ n.2.toList = AttributeSet.overflow.toList) := by
  have htake (c : Collector T k) (s : Series T k) {set : AttributeSet}
      (hfound : c.find? set = some s) :
      ∃ n ∈ (c.take s).2.names, n.1 = s.id ∧ n.2.toList = set.toList := by
    obtain ⟨hset, hs⟩ := c.mem_of_find? hfound
    refine ⟨s.name, ?_, rfl, AttributeSet.toList_eq_of_beq hset⟩
    rw [names_take]
    exact List.mem_map_of_mem hs
  have hopen (c : Collector T k) (set : AttributeSet) :
      ∃ n ∈ (c.openSeries set).2.names, n.1 = c.nextId ∧ n.2.toList = set.toList := by
    refine ⟨(c.nextId, set), ?_, rfl, rfl⟩
    rw [names_openSeries]
    exact List.mem_append_right _ List.mem_cons_self
  unfold acquire
  split
  · rename_i s hs
    obtain ⟨n, hn, hid, hset⟩ := htake c s hs
    exact ⟨n, hn, hid, .inl hset⟩
  · by_cases hlimit : c.isAtLimit = true
    · rw [if_pos hlimit]
      dsimp only
      split
      · rename_i s hs
        obtain ⟨n, hn, hid, hset⟩ := htake { c with overflowCount := c.overflowCount + 1 } s hs
        exact ⟨n, hn, hid, .inr hset⟩
      · obtain ⟨n, hn, hid, hset⟩ :=
          hopen { c with overflowCount := c.overflowCount + 1 } .overflow
        exact ⟨n, hn, hid, .inr hset⟩
    · rw [if_neg hlimit]
      obtain ⟨n, hn, hid, hset⟩ := hopen c set
      exact ⟨n, hn, hid, .inl hset⟩

/-- A recording by attributes goes into a series that keeps the attributes that were looked for, or
those of the overflow series, for as long as it is live. -/
theorem Follows.toList_of_record {c : Collector T k} {l : Ledger T} (h : c.Follows l)
    {r : Recording T} {rest : List (Command T)} (hadmits : c.AdmitsAll (.record r :: rest))
    {e : Entry T} (he : c.entryOf? (.record r) = some e) {s : Series T k}
    (hs : s ∈ (c.run (.record r :: rest)).2.live) (hid : e.series = s.id) :
    s.attributes.toList = (c.config.filter.apply r.attributes).toList ∨
      s.attributes.toList = AttributeSet.overflow.toList := by
  let set := c.config.filter.apply r.attributes
  obtain ⟨n, hn, hnid, hset⟩ := c.toList_of_acquire set
  rw [entryOf?, h.running] at he
  cases he
  have hstep := h.perform hadmits.1
  have hnames : (c.perform (.record r)).2.names = (c.acquire set).2.names := by
    show (c.record r).names = _
    rw [record_of_running h.running, names_release, names_recordHeld]
  have hn : n ∈ (c.perform (.record r)).2.names := by rwa [hnames]
  -- the identity was given before the rest of the run, and so was the name that has it
  have hname : s.name = n := by
    rcases (hstep.names_run hadmits.2).names s.name (List.mem_map_of_mem hs) with hold | hnew
    · exact List.inj_on_of_nodup_map hstep.distinct.ids hold hn (hid.symm.trans hnid.symm)
    · have hlt := hstep.distinct.lt_nextId n hn
      have hsn : n.1 = s.name.1 := hnid.trans hid
      omega
  rw [← hname] at hset
  exact hset

/-! ## One collection -/

variable {first : Collector T k} {commands : List (Command T)}

/-- What the sampler of a live series keeps was recorded since the last collection. -/
theorem Follows.samples {c : Collector T k} {l : Ledger T} (h : c.Follows l)
    (hkind : ∀ initial, c.sampling.kind ≠ .custom initial) {s : Series T k} (hs : s ∈ c.live) :
    s.handle.Samples c.sampling.filter (l.since s.id) := by
  have hrested := Handle.rested_fresh k c.sampling
  have hreplay := hrested.samples_replay (Handle.samples_fresh k hkind) s.attributes (l.past s.id)
  rw [h.handle s hs]
  exact hreplay.recordAll (l.since s.id)

/-- What a recording by attributes carries is in the point of its series or left to its exemplar,
unless it shares the overflow series. -/
theorem lastValue_of_record (hfirst : first.Follows {}) (hadmits : first.AdmitsAll commands)
    {n : Nat} {r : Recording T} (hr : commands[n]? = some (.record r)) {e : Entry T}
    (hentry : first.entryAt commands n = some e) {s : Series T k}
    (hs : s ∈ (first.run commands).2.live) (hid : e.series = s.id)
    (hoverflow : s.attributes.toList ≠ AttributeSet.overflow.toList) (key : String) :
    lastValue r.attributes key = (lastValue s.attributes.toList key).or
      (lastValue (r.exemplar s.attributes).attributes key) := by
  have hsplit := eq_take_append_cons_drop hr
  let c := (first.run (commands.take n)).2
  obtain ⟨hbefore, hafter⟩ := AdmitsAll.of_append (hsplit ▸ hadmits)
  have hlive : s ∈ (c.run (.record r :: commands.drop (n + 1))).2.live := by
    rwa [hsplit, run_append] at hs
  have hconfig : c.config = first.config := config_run first _
  rw [entryAt, hr] at hentry
  have hlist : s.attributes.toList = (c.config.filter.apply r.attributes).toList :=
    ((hfirst.run hbefore).toList_of_record hafter hentry hlive hid).resolve_right hoverflow
  have hleft : (r.exemplar s.attributes).attributes =
      r.attributes.filter fun a => !(c.config.filter.apply r.attributes).contains a.key := by
    show r.attributes.filter (fun a => !s.attributes.toList.any (·.key == a.key)) = _
    rw [hlist]
    rfl
  rw [hleft, hlist]
  exact c.config.filter.lastValue_eq_or r.attributes key

/-- The exemplars that a live series yields stem from commands at different positions, all of which
recorded into the series. -/
theorem exists_sources_of_yield (hfirst : first.Follows {})
    (hkind : ∀ initial, first.sampling.kind ≠ .custom initial) (hadmits : first.AdmitsAll commands)
    {s : Series T k} (hs : s ∈ (first.run commands).2.live) {a : Accumulation T k}
    (ha : s.yield = some a) :
    ∃ ns : List Nat, ns.Nodup ∧
      (∀ n ∈ ns, InOpenCycle commands n ∧ ∃ r, first.entryAt commands n = some ⟨s.id, r⟩) ∧
      List.Forall₂ (first.StemsFrom commands (a.point s.attributes)) a.exemplars ns := by
  have hfollows := hfirst.run hadmits
  have hsampling : (first.run commands).2.sampling = first.sampling :=
    congrArg Settings.sampling (settings_run first commands)
  have hsamples := hfollows.samples (hsampling.symm ▸ hkind) hs
  obtain ⟨kept, hkept, hexemplars⟩ := hsamples.exemplars_eq ha
  obtain ⟨ns, hnodup, hns⟩ := first.exists_sources hkept
  refine ⟨ns, hnodup, fun n hn => ?_, ?_⟩
  · obtain ⟨r, -, hopen, hentry, -⟩ := exists_of_mem_forall₂ hns hn
    exact ⟨hopen, r, hentry⟩
  · rw [hexemplars, List.forall₂_map_left_iff]
    refine (List.Forall₂.flip hns).imp fun r n hn => ?_
    obtain ⟨hopen, hentry, haccepts⟩ := hn
    rw [hsampling] at haccepts
    refine ⟨hopen, ⟨s, hs, r, rfl, hentry, haccepts, r.shown_exemplar s.attributes a⟩, ?_⟩
    intro r' hr' hoverflow key
    -- the command at the position makes one recording only
    have hrr : r' = r := by
      rw [entryAt, hr'] at hentry
      change (first.run (commands.take n)).2.entryOf? (.record r') = _ at hentry
      rw [entryOf?] at hentry
      split at hentry
      · cases hentry
      · exact congrArg Entry.recording (Option.some.inj hentry)
    rw [hrr]
    rw [hrr] at hr'
    exact lastValue_of_record hfirst hadmits hr' hentry hs rfl hoverflow key

omit [Quantity T] in
/-- Positions that belong to series which differ from each other differ from each other. -/
theorem exists_sources_of_forall₂ {P : Nat → Nat → Prop} {R : Point T k → List Nat → Prop}
    (hunique : ∀ n id id', P n id → P n id' → id = id') {live : List (Series T k)}
    {points : List (Point T k)} (hids : live.Pairwise fun s t => s.id ≠ t.id)
    (h : List.Forall₂ (fun s p => ∃ ns : List Nat, ns.Nodup ∧ (∀ n ∈ ns, P n s.id) ∧ R p ns)
      live points) :
    ∃ sources : List (List Nat), sources.flatten.Nodup ∧
      (∀ n ∈ sources.flatten, ∃ s ∈ live, P n s.id) ∧ List.Forall₂ R points sources := by
  induction h with
  | nil => exact ⟨[], List.nodup_nil, nofun, .nil⟩
  | cons hsp _ ih =>
    obtain ⟨hs, hrest⟩ := List.pairwise_cons.1 hids
    obtain ⟨ns, hnodup, hns, hr⟩ := hsp
    obtain ⟨sources, hsources, howners, hrs⟩ := ih hrest
    refine ⟨ns :: sources, ?_, fun n hn => ?_, .cons hr hrs⟩
    · rw [List.flatten_cons]
      refine List.nodup_append.2 ⟨hnodup, hsources, fun n hn m hm hnm => ?_⟩
      obtain ⟨t, ht, howner⟩ := howners m hm
      exact hs t ht (hunique n _ _ (hns n hn) (hnm ▸ howner))
    · rw [List.flatten_cons] at hn
      rcases List.mem_append.1 hn with hn | hn
      · exact ⟨_, List.mem_cons_self, hns n hn⟩
      · obtain ⟨t, ht, howner⟩ := howners n hn
        exact ⟨t, List.mem_cons_of_mem _ ht, howner⟩

/-- The exemplars of a delta report stem from commands at different positions after the last
collection. -/
theorem exists_sources_of_collect (hfirst : first.Follows {})
    (hkind : ∀ initial, first.sampling.kind ≠ .custom initial)
    (hdelta : first.config.temporality = .delta) (hadmits : first.AdmitsAll commands)
    {start time : Time} {m : Metric T k}
    (hm : ((first.run commands).2.collect start time).1 = some m) :
    ∃ sources : List (List Nat), sources.flatten.Nodup ∧
      (∀ n ∈ sources.flatten, InOpenCycle commands n) ∧
      List.Forall₂ (fun p ns => List.Forall₂ (first.StemsFrom commands p) p.exemplars ns)
        m.points sources := by
  have hfollows := hfirst.run hadmits
  have hconfig : (first.run commands).2.config.temporality = .delta := by
    rw [config_run, hdelta]
  rw [collect_fst hfollows.distinct hfollows.detached,
    accounts_delta hfollows.distinct hfollows.detached hconfig, findings] at hm
  have hpoints := report_points _ start time (fun s hs => hfollows.yield_eq_none hs) hm
  let reported : List (Series T k) := (first.run commands).2.live.filter fun s =>
    !((first.ledger {} commands).since s.id).isEmpty
  have hids : reported.Pairwise fun s t => s.id ≠ t.id :=
    (List.pairwise_map.1 hfollows.distinct.live_ids).filter _
  let P (n id : Nat) : Prop :=
    InOpenCycle commands n ∧ ∃ r, first.entryAt commands n = some ⟨id, r⟩
  have hunique : ∀ n id id', P n id → P n id' → id = id' := by
    rintro n id id' ⟨-, r, hr⟩ ⟨-, r', hr'⟩
    rw [hr, Option.some_inj] at hr'
    exact congrArg Entry.series hr'
  have hyields : List.Forall₂ (fun (s : Series T k) (p : Point T k) => ∃ ns : List Nat, ns.Nodup ∧
      (∀ n ∈ ns, P n s.id) ∧ List.Forall₂ (first.StemsFrom commands p) p.exemplars ns)
      reported m.points := by
    refine hpoints.imp fun s p hsp => ?_
    obtain ⟨hs, a, ha, rfl⟩ := hsp
    exact exists_sources_of_yield hfirst hkind hadmits hs ha
  obtain ⟨sources, hnodup, howners, hsources⟩ := exists_sources_of_forall₂ (P := P)
    (R := fun p ns => List.Forall₂ (first.StemsFrom commands p) p.exemplars ns) hunique hids hyields
  refine ⟨sources, hnodup, fun n hn => ?_, hsources⟩
  obtain ⟨s, -, hopen, -⟩ := howners n hn
  exact hopen

/-! ## Over a run -/

/-- **Where exemplars come from.** Take a delta collector with a sample of fixed size or one of the
buckets and any filter, but no reservoir of the caller's making, and any commands that may be done
before a shutdown. There are positions of commands for the exemplars of all reports, a list of
positions for each point of the report at a position `q`. Each exemplar stems from the command at its
position. No position is there twice, neither in one report nor in two of them. -/
theorem exemplars_stem_from_recordings (sampling : SamplingPlan T) (stream : Stream)
    (config : ReaderConfig) (hkind : ∀ initial, sampling.kind ≠ .custom initial)
    (hdelta : config.temporality = .delta) {commands : List (Command T)}
    (hadmits : (new sampling stream config : Collector T k).AdmitsAll commands) :
    let first : Collector T k := new sampling stream config
    ∃ sources : Nat → List (List Nat),
      (∀ q, (sources q).flatten.Nodup) ∧
      (∀ q q', q ≠ q' → (sources q).flatten.Disjoint (sources q').flatten) ∧
      ∀ q m, (first.run commands).1[q]? = some (.reported (some m)) →
        List.Forall₂
          (fun p ns => List.Forall₂ (first.StemsFrom (commands.take q) p) p.exemplars ns)
          m.points (sources q) := by
  intro first
  have hfirst : first.Follows {} := .new sampling stream config
  have hreport (q : Nat) : ∃ sources : List (List Nat), sources.flatten.Nodup ∧
      (∀ n ∈ sources.flatten, InOpenCycle (commands.take q) n ∧
        ∃ start time, commands[q]? = some (.collect start time)) ∧
      ∀ m, (first.run commands).1[q]? = some (.reported (some m)) →
        List.Forall₂
          (fun p ns => List.Forall₂ (first.StemsFrom (commands.take q) p) p.exemplars ns)
          m.points sources := by
    by_cases hreported : ∃ m, (first.run commands).1[q]? = some (.reported (some m))
    · obtain ⟨m, hm⟩ := hreported
      have hreply := hm
      rw [getElem?_replies, Option.map_eq_some_iff] at hreply
      obtain ⟨command, hcommand, hreply⟩ := hreply
      have hsplit := eq_take_append_cons_drop hcommand
      obtain ⟨hbefore, hafter⟩ := AdmitsAll.of_append (hsplit ▸ hadmits)
      cases command with
      | collect start time =>
        obtain ⟨sources, hnodup, hopen, hsources⟩ :=
          exists_sources_of_collect hfirst hkind hdelta hbefore (Reply.reported.inj hreply)
        refine ⟨sources, hnodup, fun n hn => ⟨hopen n hn, start, time, hcommand⟩, fun m' hm' => ?_⟩
        rw [hm] at hm'
        cases hm'
        exact hsources
      | record r => cases hreply
      | hold set => cases hreply
      | recordHeld id r => cases hreply
      | release id => cases hreply
      | drainHeld id point => exact hafter.1.elim
      | shutdown start time => exact hafter.1.elim
    · exact ⟨[], List.nodup_nil, nofun, fun m hm => absurd ⟨m, hm⟩ hreported⟩
  choose sources hnodup hopen hsources using hreport
  refine ⟨sources, hnodup, ?_, hsources⟩
  -- a collection ends the cycle that is open, so no later one finds the same position
  have hlater (q q' n : Nat) (hlt : q < q') (hq : n ∈ (sources q).flatten)
      (hq' : n ∈ (sources q').flatten) : False := by
    obtain ⟨hn, start, time, hcollect⟩ := hopen q n hq
    have hnq := hn.lt_length
    rw [List.length_take] at hnq
    refine (hopen q' n hq').1.no_collect q (by omega) start time ?_
    rwa [List.getElem?_take_of_lt hlt]
  intro q q' hne n hq hq'
  rcases Nat.lt_or_gt_of_ne hne with hlt | hlt
  · exact hlater q q' n hlt hq hq'
  · exact hlater q' q n hlt hq' hq

/-- Recordings in sampled spans are kept, two of a series in a cycle. -/
def tracedSampling : SamplingPlan UInt64 := ⟨.traceBased, .fixedSize 2⟩

/-- One series at most is tracked beside the overflow series, by the key `a` alone. -/
def tracedConfig : ReaderConfig :=
  { temporality := .delta, limit := 1, limit_pos := Nat.one_pos, maxIdle := none,
    maxIdle_ne_zero := nofun, filter := .ofKeys (some ["a"]) }

/-- A sampled span. -/
def tracedSpan : SpanContext := { trace := 1, span := 2, flags := 1 }

/-- The key `a` is recorded twice at once, beside another key; a holder records into the overflow
series; and one recording is outside of sampled spans. -/
def tracedCommands : List (Command UInt64) :=
  [.record
      { value := 5
        attributes := [⟨"a", .int 1⟩, ⟨"b", .int 2⟩, ⟨"a", .int 3⟩]
        span := tracedSpan },
    .hold (.ofList [⟨"a", .int 4⟩]),
    .recordHeld 1 { value := 7, attributes := [⟨"b", .int 5⟩], span := tracedSpan },
    .record { value := 9, attributes := [⟨"a", .int 3⟩] },
    .collect 0 1,
    .record { value := 2, attributes := [⟨"a", .int 3⟩], span := tracedSpan },
    .collect 0 2]

/-- How many exemplars stand beside the points of each report among replies. -/
def exemplarCounts (replies : List (Reply T k)) : List (List Nat) :=
  replies.filterMap fun
    | .reported (some m) => some (m.points.map (·.exemplars.length))
    | _ => none

theorem exemplars_stem_from_recordings_traced :
    let first : Collector UInt64 (.sum true) := new tracedSampling default tracedConfig
    (∀ initial, tracedSampling.kind ≠ .custom initial) ∧ tracedConfig.temporality = .delta ∧
      first.AdmitsAll tracedCommands ∧
      exemplarCounts (first.run tracedCommands).1 = [[1, 1], [1]] ∧
      ∀ q m, (first.run tracedCommands).1[q]? = some (.reported (some m)) →
        ∀ p ∈ m.points, ∀ e ∈ p.exemplars, ∃ n, first.StemsFrom (tracedCommands.take q) p e n := by
  intro first
  have hkind : ∀ initial, tracedSampling.kind ≠ .custom initial := nofun
  have hadmits : first.AdmitsAll tracedCommands := by decide +kernel
  refine ⟨hkind, rfl, hadmits, by decide +kernel, fun q m hm p hp e he => ?_⟩
  obtain ⟨sources, -, -, hsources⟩ :=
    exemplars_stem_from_recordings (k := .sum true) tracedSampling default tracedConfig hkind rfl
      hadmits
  obtain ⟨ns, -, hns⟩ := exists_of_mem_forall₂ (hsources q m hm) hp
  obtain ⟨n, -, hn⟩ := exists_of_mem_forall₂ hns he
  exact ⟨n, hn⟩

end Collector

end Metering
