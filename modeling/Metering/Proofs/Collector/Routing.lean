import Metering.Proofs.Attribute.Identity
import Metering.Proofs.Collector.Limit
import Metering.Proofs.Collector.Retention
import Metering.Proofs.Collector.Roster

/-!
# Where recordings of the open cycle are

A collector that only records and collects tells by the sets alone which recordings of the open
cycle a live series has (`Routed`): an ordinary series has those of its own set, and the overflow
series those of all sets that have no ordinary series. A set that once found no room finds none for
the rest of the cycle, since only collections make room. -/

namespace Metering

variable {T : Type} {k : Kind}

/-! ## Sets that equal themselves -/

namespace AttributeSet

/-- The set was built from attributes and equals itself. -/
structure IsProper (set : AttributeSet) : Prop where
  digested : set.digested = true
  self : (set == set) = true

/-- The overflow set was built from its one attribute. -/
theorem isProper_overflow : overflow.IsProper := ⟨rfl, by decide +kernel⟩

/-- Sets with a digest that are the same are one. -/
theorem IsProper.beq_iff {a b : AttributeSet} (ha : a.IsProper) (hb : b.digested = true) :
    (a == b) = true ↔ a = b := by
  constructor
  · exact fun h => eq_of_toList (toList_eq_of_beq h) (ha.digested.trans hb.symm)
  · rintro rfl
    exact ha.self

end AttributeSet

namespace Collector

/-- The set that identifies the series of a recording. -/
def setOf (c : Collector T k) (r : Recording T) : AttributeSet := c.config.filter.apply r.attributes

/-- The set of a recording was built by the filter. -/
theorem digested_setOf (c : Collector T k) (r : Recording T) : (c.setOf r).digested = true :=
  c.config.filter.digested_apply r.attributes

/-- The sets of the ordinary series, in the order in which they were opened. -/
def ordinarySets (c : Collector T k) : List AttributeSet :=
  (c.names.map (·.2)).filter (!· == .overflow)

/-- Whether a set has an ordinary series. -/
def tracks (c : Collector T k) (set : AttributeSet) : Bool := c.ordinarySets.any (· == set)

/-- The live series have proper sets. -/
def Proper (c : Collector T k) : Prop := ∀ n ∈ c.names, n.2.IsProper

/-- There are as many ordinary sets as ordinary series. -/
theorem length_ordinarySets (c : Collector T k) : c.ordinarySets.length = c.ordinary.length := by
  rw [length_ordinary, ordinarySets, List.filter_map, List.length_map]
  rfl

/-- The ordinary sets are those of live series, the overflow set aside. -/
theorem mem_ordinarySets {c : Collector T k} {set : AttributeSet} :
    set ∈ c.ordinarySets ↔ ∃ n ∈ c.names, n.2 = set ∧ (set == .overflow) = false := by
  rw [ordinarySets, List.mem_filter, List.mem_map]
  constructor
  · rintro ⟨⟨n, hn, rfl⟩, hset⟩
    exact ⟨n, hn, rfl, by simpa using hset⟩
  · rintro ⟨n, hn, rfl, hset⟩
    exact ⟨⟨n, hn, rfl⟩, by simpa using hset⟩

/-- Among proper sets, to be equal to an ordinary set is to be one. -/
theorem Proper.tracks_iff {c : Collector T k} (h : c.Proper) {set : AttributeSet}
    (hset : set.digested = true) : c.tracks set = true ↔ set ∈ c.ordinarySets := by
  rw [tracks, List.any_eq_true]
  constructor
  · rintro ⟨other, hother, heq⟩
    obtain ⟨n, hn, rfl, -⟩ := mem_ordinarySets.1 hother
    rwa [← ((h n hn).beq_iff hset).1 heq]
  · intro hmem
    obtain ⟨n, hn, rfl, -⟩ := mem_ordinarySets.1 hmem
    exact ⟨n.2, hmem, (h n hn).self⟩

/-- The overflow series is not ordinary. -/
theorem overflow_not_mem_ordinarySets (c : Collector T k) : .overflow ∉ c.ordinarySets := by
  intro hmem
  obtain ⟨-, -, -, hne⟩ := mem_ordinarySets.1 hmem
  rw [AttributeSet.isProper_overflow.self] at hne
  cases hne

/-! ## Acquiring -/

/-- The name that a set finds, once it was acquired: one of its own, or that of the overflow series
if there is no room and never was any. -/
def Reaches (c : Collector T k) (set : AttributeSet) (n : Nat × AttributeSet) : Prop :=
  n.2 = set ∨
    n.2 = .overflow ∧ set ∉ c.ordinarySets ∧ c.config.limit ≤ c.ordinarySets.length

/-- What acquiring a series does to the names: it finds the name of the set, or enters it if there
is room, or else comes to the overflow series. -/
structure Enters (c : Collector T k) (set : AttributeSet) (answer : Nat × Collector T k) :
    Prop where
  config : answer.2.config = c.config
  proper : answer.2.Proper
  names : c.names <+: answer.2.names
  unchanged : set ∈ c.ordinarySets ∨ set = .overflow ∨ c.config.limit ≤ c.ordinarySets.length →
    answer.2.ordinarySets = c.ordinarySets
  entered : set ∉ c.ordinarySets → set ≠ .overflow → c.ordinarySets.length < c.config.limit →
    answer.2.ordinarySets = c.ordinarySets ++ [set]
  reaches : ∃ n ∈ answer.2.names, n.1 = answer.1 ∧ answer.2.Reaches set n

/-- What a set reaches depends on the ordinary sets and the limit only. -/
theorem Reaches.of_eq {c c' : Collector T k} {set : AttributeSet} {n : Nat × AttributeSet}
    (h : c.Reaches set n) (hsets : c'.ordinarySets = c.ordinarySets)
    (hconfig : c'.config = c.config) :
    c'.Reaches set n := by
  rw [Reaches, hsets, hconfig]
  exact h

/-- A set that is known or finds no room enters no ordinary name. -/
theorem Enters.of_unchanged {c : Collector T k} {set : AttributeSet}
    {answer : Nat × Collector T k} (hconfig : answer.2.config = c.config)
    (hproper : answer.2.Proper) (hnames : c.names <+: answer.2.names)
    (hsets : answer.2.ordinarySets = c.ordinarySets)
    (hroom : set ∈ c.ordinarySets ∨ set = .overflow ∨ c.config.limit ≤ c.ordinarySets.length)
    (hreaches : ∃ n ∈ answer.2.names, n.1 = answer.1 ∧ c.Reaches set n) : c.Enters set answer where
  config := hconfig
  proper := hproper
  names := hnames
  unchanged _ := hsets
  entered hunknown hne hlt := by
    rcases hroom with hknown | hover | hfull
    · exact absurd hknown hunknown
    · exact absurd hover hne
    · exact absurd hfull (Nat.not_le_of_lt hlt)
  reaches := by
    obtain ⟨n, hn, hid, hreach⟩ := hreaches
    exact ⟨n, hn, hid, hreach.of_eq hsets hconfig⟩

/-- Where there was no room nothing is entered, so what did not reach a series of its own then does
not reach one now. -/
theorem Enters.keeps_reaches {c : Collector T k} {set other : AttributeSet}
    {answer : Nat × Collector T k} (h : c.Enters set answer) {n : Nat × AttributeSet}
    (hreach : c.Reaches other n) : answer.2.Reaches other n := by
  rcases hreach with heq | hshared
  · exact .inl heq
  · exact Reaches.of_eq (.inr hshared) (h.unchanged (.inr (.inr hshared.2.2))) h.config

/-- A proper set that is not found has no live series. -/
theorem not_mem_of_find?_eq_none {c : Collector T k} {set : AttributeSet} (hset : set.IsProper)
    (hnone : c.find? set = none) : ∀ n ∈ c.names, n.2 ≠ set := by
  rintro n hn rfl
  obtain ⟨s, hs, rfl⟩ := List.mem_map.1 hn
  exact c.find?_eq_none_iff.1 hnone ⟨s, hs, hset.self⟩

/-- The ordinary sets can be read off the names. -/
theorem ordinarySets_of_names_eq {c c' : Collector T k} (h : c'.names = c.names) :
    c'.ordinarySets = c.ordinarySets := by
  rw [ordinarySets, ordinarySets, h]

variable [Quantity T]

/-- A new name is that of an ordinary series unless it is that of the overflow series. -/
theorem ordinarySets_openSeries (c : Collector T k) (set : AttributeSet) :
    (c.openSeries set).2.ordinarySets =
      c.ordinarySets ++ if (set == .overflow) = true then [] else [set] := by
  rw [ordinarySets, ordinarySets, names_openSeries, List.map_append, List.filter_append]
  by_cases hover : (set == .overflow) = true <;> simp [hover]

omit [Quantity T] in
/-- Whether live series have proper sets can be read off the names. -/
theorem Proper.of_names_eq {c c' : Collector T k} (h : c.Proper) (hnames : c'.names = c.names) :
    c'.Proper := by
  rw [Proper, hnames]
  exact h

/-- Opening a series under a proper set leaves only proper sets. -/
theorem Proper.openSeries {c : Collector T k} (h : c.Proper) {set : AttributeSet}
    (hset : set.IsProper) : (c.openSeries set).2.Proper := by
  intro n hn
  rw [names_openSeries] at hn
  rcases List.mem_append.1 hn with hn | hn
  · exact h n hn
  · rw [List.mem_singleton.1 hn]
    exact hset

/-- A recording enters no other names than acquiring its series does. -/
theorem names_record {c : Collector T k} (h : c.shutDown = false) (r : Recording T) :
    (c.record r).names = (c.acquire (c.setOf r)).2.names := by
  rw [record_of_running h, names_release, names_recordHeld]
  rfl

/-- Acquiring the series of a proper set. -/
theorem Distinct.enters_acquire {c : Collector T k} (h : c.Distinct) (hproper : c.Proper)
    {set : AttributeSet} (hset : set.IsProper) : c.Enters set (c.acquire set) := by
  have hlength := c.length_ordinarySets
  have hoverflow : (set == .overflow) = true ↔ set = .overflow := hset.beq_iff rfl
  cases hfind : c.find? set with
  | some s =>
    -- the set has a live series, which is ordinary unless it is the overflow series
    obtain ⟨hs, hlive⟩ := c.mem_of_find? hfind
    have hname : s.name ∈ c.names := List.mem_map_of_mem hlive
    have hattributes : s.attributes = set := ((hproper _ hname).beq_iff hset.digested).1 hs
    have hknown : set ∈ c.ordinarySets ∨ set = .overflow := by
      by_cases hover : set = .overflow
      · exact .inr hover
      · exact .inl (mem_ordinarySets.2
          ⟨s.name, hname, hattributes, Bool.not_eq_true _ ▸ fun hbeq => hover (hoverflow.1 hbeq)⟩)
    rw [acquire_of_known hfind]
    have hnames := c.names_take s
    exact .of_unchanged rfl (hproper.of_names_eq hnames) (hnames ▸ List.prefix_rfl)
      (ordinarySets_of_names_eq hnames) (hknown.imp_right .inl)
      ⟨s.name, hnames ▸ hname, rfl, .inl hattributes⟩
  | none =>
    have hnew := not_mem_of_find?_eq_none hset hfind
    have hunknown : set ∉ c.ordinarySets := fun hmem => by
      obtain ⟨n, hn, heq, -⟩ := mem_ordinarySets.1 hmem
      exact hnew n hn heq
    have hopen (d : Collector T k) (new : AttributeSet) :
        (d.nextId, new) ∈ (d.openSeries new).2.names := by
      rw [names_openSeries]
      exact List.mem_append_right _ List.mem_cons_self
    cases hlimit : c.isAtLimit with
    | false =>
      have hroom : ¬ c.config.limit ≤ c.ordinarySets.length := by
        rw [hlength, ← h.isAtLimit_iff, hlimit]
        exact Bool.false_ne_true
      rw [acquire_of_room hfind hlimit]
      have hsets := c.ordinarySets_openSeries set
      refine ⟨rfl, hproper.openSeries hset, ?_, fun hknown => ?_, fun _ hne _ => ?_, _, hopen c set,
        rfl, .inl rfl⟩
      · rw [names_openSeries]
        exact List.prefix_append _ _
      · have hover : set = .overflow := (hknown.resolve_left hunknown).resolve_right hroom
        rw [hsets, if_pos (hoverflow.2 hover), List.append_nil]
      · rw [hsets, if_neg fun hbeq => hne (hoverflow.1 hbeq)]
    | true =>
      have hfull : c.config.limit ≤ c.ordinarySets.length := by
        rw [hlength]
        exact h.isAtLimit_iff.1 hlimit
      cases hshared : c.find? .overflow with
      | some s =>
        obtain ⟨hs, hlive⟩ := c.mem_of_find? hshared
        have hname : s.name ∈ c.names := List.mem_map_of_mem hlive
        have hattributes : s.attributes = .overflow := ((hproper _ hname).beq_iff rfl).1 hs
        rw [acquire_of_shared hfind hlimit hshared]
        have hnames := names_take { c with overflowCount := c.overflowCount + 1 } s
        exact .of_unchanged rfl (hproper.of_names_eq hnames) (hnames ▸ List.prefix_rfl)
          (ordinarySets_of_names_eq hnames) (.inr (.inr hfull))
          ⟨s.name, hnames ▸ hname, rfl, .inr ⟨hattributes, hunknown, hfull⟩⟩
      | none =>
        rw [acquire_of_overflows hfind hlimit hshared]
        let d : Collector T k := { c with overflowCount := c.overflowCount + 1 }
        have hsets : (d.openSeries .overflow).2.ordinarySets = c.ordinarySets := by
          rw [d.ordinarySets_openSeries, if_pos AttributeSet.isProper_overflow.self,
            List.append_nil]
          rfl
        have hnames : c.names <+: (d.openSeries .overflow).2.names := by
          rw [names_openSeries]
          exact List.prefix_append _ _
        exact .of_unchanged rfl (Proper.openSeries (c := d) hproper AttributeSet.isProper_overflow)
          hnames hsets (.inr (.inr hfull))
          ⟨_, hopen d .overflow, rfl, .inr ⟨rfl, hunknown, hfull⟩⟩

/-! ## The open cycle -/

/-- What holds of a collector and its ledger after any recording or collection if it held before,
holds after any number of them. -/
theorem run_of_perform {holds : Collector T k → Ledger T → Prop}
    (hperform : ∀ {c l}, holds c l → ∀ {command : Command T}, command.IsPlain →
      command.IsReflexive c.config.filter → holds (c.perform command).2 (c.note l command))
    {c : Collector T k} {l : Ledger T} (h : holds c l) {commands : List (Command T)}
    (hplain : ∀ command ∈ commands, command.IsPlain)
    (hreflexive : ∀ command ∈ commands, command.IsReflexive c.config.filter) :
    holds (c.run commands).2 (c.ledger l commands) := by
  induction commands generalizing c l with
  | nil => exact h
  | cons command rest ih =>
    have hconfig := config_perform c command
    refine ih (hperform h (hplain _ List.mem_cons_self) (hreflexive _ List.mem_cons_self))
      (fun other hother => hplain other (List.mem_cons_of_mem _ hother)) fun other hother => ?_
    exact hconfig ▸ hreflexive other (List.mem_cons_of_mem _ hother)

/-- A collector in step with its ledger, whose live series have the recordings of the open cycle
that their sets say. -/
structure Routed (c : Collector T k) (l : Ledger T) : Prop extends c.Follows l where
  proper : c.Proper
  reaches : ∀ e ∈ l.current, ∃ n ∈ c.names, n.1 = e.series ∧ c.Reaches (c.setOf e.recording) n

namespace Routed

variable {c : Collector T k} {l : Ledger T}

/-- A new collector routed nothing yet. -/
theorem new (sampling : SamplingPlan T) (stream : Stream) (config : ReaderConfig) :
    (Collector.new sampling stream config : Collector T k).Routed {} where
  toFollows := .new sampling stream config
  proper := nofun
  reaches := nofun

/-- A recording is entered where its set leads, and does not lead earlier ones elsewhere. -/
theorem record (h : c.Routed l) {r : Recording T} (hr : (c.setOf r).IsProper) :
    (c.record r).Routed (c.note l (.record r)) := by
  have henters := h.distinct.enters_acquire h.proper hr
  have hnames := names_record h.running r
  have hconfig : (c.record r).config = c.config := config_perform c (.record r)
  have hsetOf : (c.record r).setOf = c.setOf := by
    funext r'
    rw [setOf, setOf, hconfig]
  have hreaches {set : AttributeSet} {n : Nat × AttributeSet}
      (hreach : (c.acquire (c.setOf r)).2.Reaches set n) : (c.record r).Reaches set n :=
    hreach.of_eq (ordinarySets_of_names_eq hnames) (hconfig.trans henters.config.symm)
  have hfollows : (c.perform (.record r)).2.Follows (c.note l (.record r)) :=
    h.toFollows.perform trivial
  refine ⟨hfollows, henters.proper.of_names_eq hnames, fun e he => ?_⟩
  rw [note, h.running] at he
  rw [hnames, hsetOf]
  -- an entry of before leads where it led; the new one leads to the series just acquired
  rcases List.mem_append.1 he with he | he
  · obtain ⟨n, hn, hid, hreach⟩ := h.reaches e he
    exact ⟨n, henters.names.subset hn, hid, hreaches (henters.keeps_reaches hreach)⟩
  · obtain ⟨n, hn, hid, hreach⟩ := henters.reaches
    rw [List.mem_singleton.1 he]
    exact ⟨n, hn, hid, hreaches hreach⟩

/-- A collection leaves no entries in the open cycle. -/
theorem collect (h : c.Routed l) (start time : Time) :
    (c.collect start time).2.Routed l.close := by
  refine ⟨h.toFollows.collect start time, fun n hn => ?_, nofun⟩
  obtain ⟨live, retained, hlive, heq⟩ := collect_snd h.distinct h.detached start time
  rw [heq] at hn
  exact h.proper n ((names_sublist hlive).subset hn)

/-- Recording and collecting keep a collector routed, if sets equal themselves. -/
theorem perform (h : c.Routed l) {command : Command T} (hplain : command.IsPlain)
    (hreflexive : command.IsReflexive c.config.filter) :
    (c.perform command).2.Routed (c.note l command) := by
  cases command, hplain using Command.IsPlain.cases with
  | record r => exact h.record ⟨c.config.filter.digested_apply r.attributes, hreflexive⟩
  | collect start time => exact h.collect start time

/-- Runs of recordings and collections keep a collector routed, if sets equal themselves. -/
theorem run (h : c.Routed l) {commands : List (Command T)}
    (hplain : ∀ command ∈ commands, command.IsPlain)
    (hreflexive : ∀ command ∈ commands, command.IsReflexive c.config.filter) :
    (c.run commands).2.Routed (c.ledger l commands) :=
  run_of_perform perform h hplain hreflexive

/-! ## Recordings by series -/

/-- One set stands for one name. -/
theorem name_eq (h : c.Routed l) {n m : Nat × AttributeSet} (hn : n ∈ c.names) (hm : m ∈ c.names)
    (hset : n.2 = m.2) : n = m :=
  h.distinct.name_inj hn hm (hset ▸ (h.proper n hn).self)

/-- Live series with the same attributes are one and the same. -/
theorem series_eq (h : c.Routed l) {s t : Series T k} (hs : s ∈ c.live) (ht : t ∈ c.live)
    (hlist : s.attributes.toList = t.attributes.toList) : s = t := by
  have hproper := h.proper s.name (List.mem_map_of_mem hs)
  have hdigested := (h.proper t.name (List.mem_map_of_mem ht)).digested
  have hset : s.attributes = t.attributes :=
    AttributeSet.eq_of_toList hlist (hproper.digested.trans hdigested.symm)
  exact h.distinct.set_inj hs ht (hset ▸ hproper.self)

/-- A live series is ordinary unless it is the overflow series. -/
theorem mem_ordinarySets_of_ne (h : c.Routed l) {n : Nat × AttributeSet} (hn : n ∈ c.names)
    (hne : n.2 ≠ .overflow) : n.2 ∈ c.ordinarySets :=
  mem_ordinarySets.2
    ⟨n, hn, rfl, Bool.not_eq_true _ ▸ fun hbeq => hne (((h.proper n hn).beq_iff rfl).1 hbeq)⟩

/-- The entries of an ordinary series are those of its set. -/
theorem series_eq_iff_of_ordinary (h : c.Routed l) {e : Entry T} (he : e ∈ l.current)
    {n : Nat × AttributeSet} (hn : n ∈ c.names) (hordinary : n.2 ≠ .overflow) :
    e.series = n.1 ↔ c.setOf e.recording = n.2 := by
  obtain ⟨m, hm, hid, hreach⟩ := h.reaches e he
  constructor
  · intro heq
    have hname : m = n := List.inj_on_of_nodup_map h.distinct.ids hm hn (hid.trans heq)
    rcases hreach with hown | hshared
    · exact hown.symm.trans (congrArg Prod.snd hname)
    · exact absurd (hname ▸ hshared.1) hordinary
  · intro heq
    rcases hreach with hown | hshared
    · rw [← hid, h.name_eq hm hn (hown.trans heq)]
    · -- the set has an ordinary series, so it did not come to the overflow series
      exact absurd (heq ▸ h.mem_ordinarySets_of_ne hn hordinary) hshared.2.1

/-- The entries of the overflow series are those of sets without an ordinary series. -/
theorem series_eq_iff_of_overflow (h : c.Routed l) {e : Entry T} (he : e ∈ l.current)
    {n : Nat × AttributeSet} (hn : n ∈ c.names) (hoverflow : n.2 = .overflow) :
    e.series = n.1 ↔ c.setOf e.recording ∉ c.ordinarySets := by
  obtain ⟨m, hm, hid, hreach⟩ := h.reaches e he
  constructor
  · intro heq hmem
    have hname : m = n := List.inj_on_of_nodup_map h.distinct.ids hm hn (hid.trans heq)
    rcases hreach with hown | hshared
    · rw [← hown, hname, hoverflow] at hmem
      exact c.overflow_not_mem_ordinarySets hmem
    · exact hshared.2.1 hmem
  -- the overflow series is the only one whose set is not ordinary, and there is one of it
  · intro hmem
    have hover : m.2 = .overflow := by
      rcases hreach with hown | hshared
      · by_contra hne
        exact hmem (hown ▸ h.mem_ordinarySets_of_ne hm hne)
      · exact hshared.1
    rw [← hid, h.name_eq hm hn (hover.trans hoverflow.symm)]

end Routed

end Collector

end Metering
