import Metering.Collector.Run
import Metering.Proofs.Attribute.Equality
import Mathlib.Data.List.Nodup
import Mathlib.Data.List.Pairwise

/-!
# Live series

What tells the live series of a collector apart are their `names`: each has an identity that no
other series ever had, and an attribute set that is not the same as that of another live series.
Acquiring a series either takes one that is live or opens a new one under a set that no live series
has; nothing else enters the live series.
-/

namespace Metering

variable {T : Type} {k : Kind}

/-- The identity of a series with its attribute set. -/
def Series.name (s : Series T k) : Nat × AttributeSet := (s.id, s.attributes)

namespace Collector

/-- The names of the live series, in the order in which they were opened. -/
def names (c : Collector T k) : List (Nat × AttributeSet) := c.live.map Series.name

/-- Some recorder has the series in hand. -/
def IsHeld (c : Collector T k) (id : Nat) : Prop :=
  ∃ s ∈ c.live ++ c.detached, s.id = id ∧ 0 < s.holders

/-- Live series can be told apart, and no identity is given twice. -/
structure Distinct (c : Collector T k) : Prop where
  ids : (c.names.map (·.1)).Nodup
  sets : c.names.Pairwise fun a b => (a.2 == b.2) = false
  lt_nextId : ∀ n ∈ c.names, n.1 < c.nextId

/-! ## Distinct names -/

/-- Series can still be told apart when some are gone and identities were used up. -/
theorem Distinct.of_sublist {c c' : Collector T k} (h : c.Distinct)
    (hnames : c'.names.Sublist c.names) (hnext : c.nextId ≤ c'.nextId) : c'.Distinct where
  ids := h.ids.sublist (hnames.map _)
  sets := h.sets.sublist hnames
  lt_nextId n hn := Nat.lt_of_lt_of_le (h.lt_nextId n (hnames.subset hn)) hnext

/-- Live series have different identities. -/
theorem Distinct.live_ids {c : Collector T k} (h : c.Distinct) : (c.live.map (·.id)).Nodup := by
  have hids := h.ids
  rwa [names, List.map_map] at hids

/-- Live series have different sets. -/
theorem Distinct.live_sets {c : Collector T k} (h : c.Distinct) :
    c.live.Pairwise fun s t => (s.attributes == t.attributes) = false :=
  List.pairwise_map.1 h.sets

/-- Two live series of one identity are one and the same. -/
theorem Distinct.id_inj {c : Collector T k} (h : c.Distinct) {s t : Series T k} (hs : s ∈ c.live)
    (ht : t ∈ c.live) (hid : s.id = t.id) : s = t :=
  List.inj_on_of_nodup_map h.live_ids hs ht hid

/-- Two live series of one set are one and the same. -/
theorem Distinct.set_inj {c : Collector T k} (h : c.Distinct) {s t : Series T k} (hs : s ∈ c.live)
    (ht : t ∈ c.live) (hset : (s.attributes == t.attributes) = true) : s = t := by
  have : Std.Symm fun a b : Series T k => (a.attributes == b.attributes) = false :=
    ⟨fun _ _ hab => BEq.symm_false hab⟩
  by_contra hne
  have hdiff := h.live_sets.forall hs ht hne
  rw [hset] at hdiff
  cases hdiff

/-- Two names of one set are one and the same. -/
theorem Distinct.name_inj {c : Collector T k} (h : c.Distinct) {n m : Nat × AttributeSet}
    (hn : n ∈ c.names) (hm : m ∈ c.names) (hset : (n.2 == m.2) = true) : n = m := by
  obtain ⟨s, hs, rfl⟩ := List.mem_map.1 hn
  obtain ⟨t, ht, rfl⟩ := List.mem_map.1 hm
  exact congrArg Series.name (h.set_inj hs ht hset)

/-- Two live series have sets that differ. -/
theorem Distinct.sets_ne {c : Collector T k} (h : c.Distinct) {n m : Nat × AttributeSet}
    (hn : n ∈ c.names) (hm : m ∈ c.names) (hne : n ≠ m) : (n.2 == m.2) = false :=
  Bool.eq_false_iff.2 fun hset => hne (h.name_inj hn hm hset)

/-- A test that only one series passes finds out whether that series was picked. -/
theorem any_filter_of_unique {series : List (Series T k)} {s : Series T k} (hs : s ∈ series)
    {q : Series T k → Bool} (hq : q s = true) (hunique : ∀ t ∈ series, q t = true → t = s)
    (p : Series T k → Bool) : (series.filter p).any q = p s := by
  rw [List.any_filter, Bool.eq_iff_iff, List.any_eq_true]
  constructor
  · rintro ⟨t, ht, htq⟩
    obtain ⟨htp, htq⟩ := Bool.and_eq_true_iff.1 htq
    rwa [← hunique t ht htq]
  · intro hsp
    exact ⟨s, hs, Bool.and_eq_true_iff.2 ⟨hsp, hq⟩⟩

/-- What is found under a set is a live series of that set. -/
theorem mem_of_find? (c : Collector T k) {set : AttributeSet} {s : Series T k}
    (h : c.find? set = some s) : (s.attributes == set) = true ∧ s ∈ c.live := by
  unfold find? at h
  exact ⟨by simpa using List.find?_some h, List.mem_of_find?_eq_some h⟩

/-- A live series is found under every set that equals its own. -/
theorem Distinct.find?_of_beq {c : Collector T k} (h : c.Distinct) {s : Series T k} (hs : s ∈ c.live)
    {set : AttributeSet} (hset : (s.attributes == set) = true) : c.find? set = some s := by
  cases hfound : c.find? set with
  | none => exact absurd hset (List.find?_eq_none.1 hfound s hs)
  | some t =>
    obtain ⟨ht, hmem⟩ := c.mem_of_find? hfound
    rw [h.set_inj hmem hs (BEq.trans ht (BEq.symm hset))]

/-- A live series that equals itself is found under its set. -/
theorem Distinct.find?_eq {c : Collector T k} (h : c.Distinct) {s : Series T k} (hs : s ∈ c.live)
    (hself : (s.attributes == s.attributes) = true) : c.find? s.attributes = some s :=
  h.find?_of_beq hs hself

/-! ## Names over time -/

/-- The names of a collector at a later time: names it had before, and others with identities that
were not used before. -/
structure Precedes (c c' : Collector T k) : Prop where
  nextId_le : c.nextId ≤ c'.nextId
  names : ∀ n ∈ c'.names, n ∈ c.names ∨ c.nextId ≤ n.1

namespace Precedes

/-- A collector is its own earlier state. -/
theorem refl (c : Collector T k) : c.Precedes c := ⟨Nat.le_refl _, fun _ hn => .inl hn⟩

/-- What is neither known at first nor in between has an identity that was used at neither time. -/
theorem trans {c c' c'' : Collector T k} (h : c.Precedes c') (h' : c'.Precedes c'') :
    c.Precedes c'' := by
  refine ⟨Nat.le_trans h.nextId_le h'.nextId_le, fun n hn => ?_⟩
  rcases h'.names n hn with hn | hn
  · exact h.names n hn
  · exact .inr (Nat.le_trans h.nextId_le hn)

/-- What precedes is decided by names and the next identity only. -/
theorem of_names_eq {c c' c'' : Collector T k} (h : c.Precedes c') (hnames : c''.names = c'.names)
    (hnext : c''.nextId = c'.nextId) : c.Precedes c'' :=
  ⟨hnext ▸ h.nextId_le, hnames ▸ h.names⟩

/-- A series that is still live has the name that it had. -/
theorem mem_names {c c' : Collector T k} (h : c.Precedes c') (hdistinct : c.Distinct)
    {n : Nat × AttributeSet} (hn : n ∈ c.names) (hlive : ∃ s ∈ c'.live, s.id = n.1) :
    n ∈ c'.names := by
  obtain ⟨s, hs, hid⟩ := hlive
  have hlater : s.name ∈ c'.names := List.mem_map_of_mem hs
  have hlt : s.id < c.nextId := hid ▸ hdistinct.lt_nextId n hn
  have hname : s.name ∈ c.names := (h.names s.name hlater).resolve_right (Nat.not_le_of_lt hlt)
  rwa [List.inj_on_of_nodup_map hdistinct.ids hname hn hid] at hlater

end Precedes

/-! ## Changing one series -/

/-- Changing a series does not change which series are live. -/
theorem names_updateSeries (c : Collector T k) (id : Nat) {f : Series T k → Series T k}
    (hf : ∀ s, (f s).name = s.name) : (c.updateSeries id f).names = c.names := by
  rw [names, names, updateSeries, List.map_map]
  refine List.map_congr_left fun s _ => ?_
  rw [Function.comp_apply]
  split
  · exact hf s
  · rfl

/-- Taking a series in hand opens none. -/
@[simp] theorem names_take (c : Collector T k) (s : Series T k) : (c.take s).2.names = c.names :=
  c.names_updateSeries s.id fun _ => rfl

/-- Releasing a series closes none. -/
@[simp] theorem names_release (c : Collector T k) (id : Nat) : (c.release id).names = c.names :=
  c.names_updateSeries id fun _ => rfl

variable [Quantity T]

/-- Recordings into a series neither open nor close one. -/
@[simp] theorem names_recordHeld (c : Collector T k) (id : Nat) (r : Recording T) :
    (c.recordHeld id r).names = c.names :=
  c.names_updateSeries id fun _ => rfl

@[simp] theorem names_drainHeld (c : Collector T k) (id : Nat) (point : AttributeSet) :
    (c.drainHeld id point).2.names = c.names :=
  c.names_updateSeries id fun _ => rfl

/-! ## Acquiring -/

omit [Quantity T] in
/-- The set of a live series is what the series is found by. -/
theorem find?_map_name (c : Collector T k) (set : AttributeSet) :
    (c.find? set).map Series.name = c.names.find? (·.2 == set) := by
  rw [names, List.find?_map]
  rfl

/-- Acquiring takes a live series in hand, or opens one under the set asked for or the overflow set
if no live series has it. -/
theorem acquire_cases (c : Collector T k) (set : AttributeSet) :
    ∃ count : UInt64,
      (∃ s ∈ c.live, c.acquire set = { c with overflowCount := count }.take s) ∨
        ∃ new, (new = set ∨ new = .overflow) ∧ c.find? new = none ∧
          c.acquire set = { c with overflowCount := count }.openSeries new := by
  unfold acquire
  split
  · rename_i s hs
    exact ⟨c.overflowCount, .inl ⟨s, List.mem_of_find?_eq_some hs, rfl⟩⟩
  · rename_i hnone
    -- at the limit it is the overflow series, live or to be opened; below it, one of the set
    by_cases hlimit : c.isAtLimit = true
    · rw [if_pos hlimit]
      refine ⟨c.overflowCount + 1, ?_⟩
      cases hover : c.find? .overflow with
      | none => exact .inr ⟨.overflow, .inr rfl, hover, by simp only [find?] at hover ⊢; rw [hover]⟩
      | some s =>
        exact .inl ⟨s, List.mem_of_find?_eq_some hover, by simp only [find?] at hover ⊢; rw [hover]⟩
    · rw [if_neg hlimit]
      exact ⟨c.overflowCount, .inr ⟨set, .inl rfl, hnone, rfl⟩⟩

/-- What was acquired is a live series in hand. -/
theorem acquire_live (c : Collector T k) (set : AttributeSet) :
    ∃ s ∈ (c.acquire set).2.live, s.id = (c.acquire set).1 ∧ 0 < s.holders := by
  obtain ⟨count, ⟨s, hs, heq⟩ | ⟨new, -, -, heq⟩⟩ := c.acquire_cases set
  · rw [heq]
    refine ⟨{ s with holders := s.holders + 1 }, List.mem_map.2 ⟨s, hs, if_pos rfl⟩, rfl, ?_⟩
    exact Nat.succ_pos _
  · rw [heq]
    exact ⟨_, List.mem_append_right _ List.mem_cons_self, rfl, Nat.one_pos⟩

/-- A new series has the next identity and the set that it is opened under. -/
theorem names_openSeries (c : Collector T k) (set : AttributeSet) :
    (c.openSeries set).2.names = c.names ++ [(c.nextId, set)] := by
  simp [names, Collector.openSeries, Series.name]

/-- Until a shutdown, recording puts a series in hand, records into it and gives it out of hand. -/
theorem record_of_running {c : Collector T k} (h : c.shutDown = false) (r : Recording T) :
    c.record r =
      ((c.acquire (c.config.filter.apply r.attributes)).2.recordHeld
        (c.acquire (c.config.filter.apply r.attributes)).1 r).release
          (c.acquire (c.config.filter.apply r.attributes)).1 := by
  rw [record, h]
  rfl

/-- Opening a series under a set that no live series has keeps the live series distinct. -/
theorem Distinct.openSeries {c : Collector T k} (h : c.Distinct) {new : AttributeSet}
    (hnew : c.find? new = none) : (c.openSeries new).2.Distinct := by
  have hnames := c.names_openSeries new
  refine ⟨?_, ?_, ?_⟩
  · rw [hnames, List.map_append, List.map_singleton]
    refine List.nodup_append.2 ⟨h.ids, List.nodup_singleton _, fun a ha b hb => ?_⟩
    obtain ⟨n, hn, rfl⟩ := List.mem_map.1 ha
    rw [List.mem_singleton.1 hb]
    exact Nat.ne_of_lt (h.lt_nextId n hn)
  -- the new identity is above all others; the new set is none that is live
  · rw [hnames]
    refine List.pairwise_append.2 ⟨h.sets, List.pairwise_singleton _ _, fun a ha b hb => ?_⟩
    obtain ⟨s, hs, rfl⟩ := List.mem_map.1 ha
    rw [List.mem_singleton.1 hb]
    exact Bool.not_eq_true _ ▸ List.find?_eq_none.1 hnew s hs
  · intro n hn
    rw [hnames] at hn
    show n.1 < c.nextId + 1
    rcases List.mem_append.1 hn with hn | hn
    · exact Nat.lt_succ_of_lt (h.lt_nextId n hn)
    · rw [List.mem_singleton.1 hn]
      exact Nat.lt_succ_self _

/-- Acquiring leaves live series as they are, and may open one under the next identity. -/
theorem precedes_acquire (c : Collector T k) (set : AttributeSet) :
    c.Precedes (c.acquire set).2 := by
  obtain ⟨count, ⟨s, -, heq⟩ | ⟨new, -, -, heq⟩⟩ := c.acquire_cases set
  · rw [heq]
    exact (Precedes.refl c).of_names_eq (names_take _ s) rfl
  · rw [heq]
    refine ⟨Nat.le_succ _, fun n hn => ?_⟩
    rw [names_openSeries] at hn
    rcases List.mem_append.1 hn with hn | hn
    · exact .inl hn
    · rw [List.mem_singleton.1 hn]
      exact .inr (Nat.le_refl _)

end Collector

end Metering
