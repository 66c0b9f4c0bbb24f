import Metering.Proofs.Collector.Series
import Metering.Proofs.Collector.Settings

/-!
# The limit of a collector

No run of commands makes more series live than the limit allows, the overflow series aside, whatever
the sets are: a series is opened only by acquiring it, and everything else takes series away or leaves
them as they are (`Thins`). What acquiring does in such a state is one of three things (`Routes`), and
a recorder that only looks for a live series never finds another one than `acquire` gives.
-/

namespace Metering

variable {T : Type} {k : Kind}

/-- The set of the series that a command takes in hand. -/
def Command.wanted? (filter : KeyFilter) : Command T → Option AttributeSet
  | .record r => some (filter.apply r.attributes)
  | .hold set => some set
  | _ => none

namespace Collector

/-! ## Commands and names -/

/-- Series went away, if anything, and no identity was given. -/
structure Thins (c c' : Collector T k) : Prop where
  names : c'.names.Sublist c.names
  nextId : c'.nextId = c.nextId

namespace Thins

/-- Nothing went away if nothing changed. -/
theorem refl (c : Collector T k) : c.Thins c := ⟨.refl _, rfl⟩

/-- What goes away in two steps goes away in both together. -/
theorem trans {c c' c'' : Collector T k} (h : c.Thins c') (h' : c'.Thins c'') : c.Thins c'' :=
  ⟨h'.names.trans h.names, h'.nextId.trans h.nextId⟩

/-- A step that leaves the names of the series and the next identity as they are takes nothing
away. -/
theorem of_names_eq {c c' : Collector T k} (hnames : c'.names = c.names)
    (hnext : c'.nextId = c.nextId) : c.Thins c' :=
  ⟨hnames ▸ .refl _, hnext⟩

/-- Steps that take away series do so when they follow one another. -/
theorem foldl {α β : Type} {f : β × Collector T k → α → β × Collector T k}
    (hf : ∀ (s : β × Collector T k) (a : α), s.2.Thins (f s a).2) (l : List α)
    (s : β × Collector T k) :
    s.2.Thins (l.foldl f s).2 := by
  induction l generalizing s with
  | nil => exact refl _
  | cons a rest ih => exact (hf s a).trans (ih (f s a))

/-- Series that could be told apart still can be once some of them are gone. -/
theorem distinct {c c' : Collector T k} (h : c.Thins c') (hdistinct : c.Distinct) : c'.Distinct :=
  hdistinct.of_sublist h.names (Nat.le_of_eq h.nextId.symm)

/-- The series that are left were there before. -/
theorem precedes {c c' : Collector T k} (h : c.Thins c') : c.Precedes c' :=
  ⟨Nat.le_of_eq h.nextId.symm, fun _ hn => .inl (h.names.subset hn)⟩

end Thins

variable [Quantity T]

/-- Draining one series leaves the live ones live. -/
theorem thins_drainSeries (c : Collector T k) (cycle : Cycle T k) (id : Nat) :
    c.Thins (c.drainSeries cycle id).2 := by
  unfold drainSeries
  split
  · exact .refl c
  · dsimp only
    split <;> exact .of_names_eq (names_updateSeries _ _ fun _ => rfl) rfl

/-- Draining the next series leaves the live ones live. -/
theorem thins_drainNext (c : Collector T k) (cycle : Cycle T k) :
    c.Thins (c.drainNext cycle).2 := by
  unfold drainNext
  split
  · exact .refl c
  · exact thins_drainSeries c _ _

/-- Looking at one set whether its series is to go makes no new series. -/
theorem thins_evict (c : Collector T k) (cycle : Cycle T k) (set : AttributeSet) :
    c.Thins (c.evict cycle set).2 := by
  unfold evict
  split
  · exact .refl c
  · dsimp only
    split
    · exact .refl c
    · split <;> exact ⟨List.filter_sublist.map _, rfl⟩

/-- Evicting what is idle takes series away, one after the other, and makes no new ones. -/
theorem thins_evictIdle (c : Collector T k) (cycle : Cycle T k) :
    c.Thins (c.evictIdle cycle).2 := by
  unfold evictIdle
  split
  · exact .refl c
  -- whether a limit on idle cycles is set decides only if there are any to look at
  · exact Thins.foldl (fun s set => thins_evict s.2 s.1 set) _ (cycle, c)

/-- The end of a collection leaves the live series as they are. -/
theorem thins_finish (c : Collector T k) (cycle : Cycle T k) : c.Thins (c.finish cycle).2 := by
  unfold finish
  dsimp only
  split <;> split <;> exact .of_names_eq rfl rfl

/-- A whole collection opens no series: none of its four parts does. -/
theorem thins_collect (c : Collector T k) (start time : Time) :
    c.Thins (c.collect start time).2 := by
  have hbegin : c.Thins (c.beginCycle start time).2 := .of_names_eq rfl rfl
  have hdrain : (c.beginCycle start time).2.Thins
      ((c.beginCycle start time).2.drainPending (c.beginCycle start time).1).2 :=
    Thins.foldl (fun s _ => thins_drainNext s.2 s.1) _ (c.beginCycle start time)
  exact ((hbegin.trans hdrain).trans (thins_evictIdle _ _)).trans (thins_finish _ _)

/-- A shutdown collects, and then nothing is live. -/
theorem thins_shutdown (c : Collector T k) (start time : Time) :
    c.Thins (c.shutdown start time).2 := by
  unfold shutdown
  split
  · exact .refl c
  · exact ⟨List.nil_sublist _, (thins_collect { c with shutDown := true } start time).nextId⟩

/-- A command acquires the series of the set that it looks for, if any, and then takes series away,
if any. -/
theorem thins_perform (c : Collector T k) (command : Command T) :
    c.Thins (c.perform command).2 ∨
      ∃ set ∈ command.wanted? c.config.filter, (c.acquire set).2.Thins (c.perform command).2 := by
  cases command with
  | record r =>
    change c.Thins (c.record r) ∨ ∃ set ∈ some _, (c.acquire set).2.Thins (c.record r)
    cases hshut : c.shutDown with
    -- a collector that was shut down ignores the recording, one that runs acquires the series
    | true => exact .inl (by rw [record, hshut]; exact .refl c)
    | false =>
      refine .inr ⟨c.config.filter.apply r.attributes, rfl, ?_⟩
      rw [record_of_running hshut]
      exact .of_names_eq ((names_release _ _).trans (names_recordHeld _ _ _)) rfl
  | hold set => exact .inr ⟨set, rfl, .refl _⟩
  | recordHeld id r => exact .inl (.of_names_eq (c.names_recordHeld id r) rfl)
  | drainHeld id point => exact .inl (.of_names_eq (c.names_drainHeld id point) rfl)
  | release id => exact .inl (.of_names_eq (c.names_release id) rfl)
  | collect start time => exact .inl (thins_collect c start time)
  | shutdown start time => exact .inl (thins_shutdown c start time)

/-- What is true of the overflow set and of every set that a command looks for is true of all live
series. -/
theorem forall_names_perform {c : Collector T k} {P : AttributeSet → Prop}
    (hnames : ∀ n ∈ c.names, P n.2) (hoverflow : P .overflow) {command : Command T}
    (hcommand : ∀ set ∈ command.wanted? c.config.filter, P set) :
    ∀ n ∈ (c.perform command).2.names, P n.2 := by
  rcases c.thins_perform command with hthins | ⟨set, hset, hthins⟩
  · exact fun n hn => hnames n (hthins.names.subset hn)
  · intro n hn
    have hn := hthins.names.subset hn
    -- the series of `set` was live, or one was opened for it or for the overflow set
    obtain ⟨count, ⟨s, -, heq⟩ | ⟨new, hnew, -, heq⟩⟩ := c.acquire_cases set
    · rw [heq, names_take] at hn
      exact hnames n hn
    · rw [heq, names_openSeries] at hn
      rcases List.mem_append.1 hn with hn | hn
      · exact hnames n hn
      · rw [List.mem_singleton.1 hn]
        rcases hnew with rfl | rfl
        · exact hcommand new hset
        · exact hoverflow

/-- What is true of the overflow set and of every set that some command of a run looks for is true
of all series that are live after it, by induction on the commands. -/
theorem forall_names_run {c : Collector T k} {P : AttributeSet → Prop}
    (hnames : ∀ n ∈ c.names, P n.2) (hoverflow : P .overflow) {commands : List (Command T)}
    (hcommands : ∀ command ∈ commands, ∀ set ∈ command.wanted? c.config.filter, P set) :
    ∀ n ∈ (c.run commands).2.names, P n.2 := by
  induction commands generalizing c with
  | nil => exact hnames
  | cons command rest ih =>
    have hconfig := config_perform c command
    refine ih (forall_names_perform hnames hoverflow (hcommands command List.mem_cons_self))
      fun other hother set hset => ?_
    exact hcommands other (List.mem_cons_of_mem _ hother) set (hconfig ▸ hset)

end Collector

/-! ## Series within the limit -/

namespace Collector

/-- A live series has the set. -/
def Stores (c : Collector T k) (set : AttributeSet) : Prop :=
  ∃ s ∈ c.live, (s.attributes == set) = true

/-- The live series other than the overflow series. -/
def ordinary (c : Collector T k) : List (Series T k) :=
  c.live.filter fun s => !(s.attributes == .overflow)

/-- The live series of the overflow set. -/
def overflowing (c : Collector T k) : List (Series T k) :=
  c.live.filter fun s => s.attributes == .overflow

/-- No series is found exactly if none has the set. -/
theorem find?_eq_none_iff (c : Collector T k) {set : AttributeSet} :
    c.find? set = none ↔ ¬ c.Stores set := by
  simp [find?, Stores]

/-- How many series are ordinary can be read off the names. -/
theorem length_ordinary (c : Collector T k) :
    c.ordinary.length = (c.names.filter fun n => !(n.2 == .overflow)).length := by
  rw [names, List.filter_map, List.length_map]
  rfl

/-- A live series is ordinary or an overflow series. -/
theorem length_overflowing_add (c : Collector T k) :
    c.overflowing.length + c.ordinary.length = c.seriesCount :=
  (List.length_eq_length_filter_add _).symm

/-- Two series of the overflow set would have the same set, so there is one at most. -/
theorem Distinct.length_overflowing {c : Collector T k} (h : c.Distinct) :
    c.overflowing.length = if (c.find? .overflow).isSome then 1 else 0 := by
  cases hfind : c.find? .overflow with
  | none =>
    have hnone : c.overflowing = [] := List.filter_eq_nil_iff.2 (List.find?_eq_none.1 hfind)
    rw [hnone]
    rfl
  | some s =>
    obtain ⟨hset, hlive⟩ := c.mem_of_find? hfind
    have hall : ∀ t ∈ c.overflowing, t = s := fun t ht => by
      obtain ⟨htlive, htset⟩ := List.mem_filter.1 ht
      exact h.set_inj htlive hlive (BEq.trans htset (BEq.symm hset))
    have hnodup : c.overflowing.Nodup := (List.Nodup.of_map _ h.live_ids).filter _
    -- the list holds copies of `s` only, and no series twice
    rw [List.eq_replicate_of_mem hall, List.nodup_replicate] at hnodup
    have hpos : 0 < c.overflowing.length := List.length_pos_of_mem (List.mem_filter.2 ⟨hlive, hset⟩)
    exact Nat.le_antisymm hnodup hpos

/-- The test for the limit counts the ordinary series. -/
theorem Distinct.isAtLimit_iff {c : Collector T k} (h : c.Distinct) :
    c.isAtLimit = true ↔ c.config.limit ≤ c.ordinary.length := by
  have hcount := c.length_overflowing_add
  have hover := h.length_overflowing
  rw [isAtLimit, decide_eq_true_iff, ← hover]
  omega

/-- Live series can be told apart, and no more of them are ordinary than the limit allows. -/
structure WithinLimit (c : Collector T k) : Prop extends c.Distinct where
  ordinary_le : c.ordinary.length ≤ c.config.limit

namespace WithinLimit

variable {c : Collector T k}

/-- The overflow series is the only one beyond the limit. -/
theorem seriesCount_le (h : c.WithinLimit) : c.seriesCount ≤ c.config.limit + 1 := by
  have hover : c.overflowing.length ≤ 1 := by
    rw [h.toDistinct.length_overflowing]
    split <;> omega
  have hcount := c.length_overflowing_add
  have hordinary := h.ordinary_le
  omega

/-- Taking series away never leads beyond the limit. -/
theorem thins (h : c.WithinLimit) {c' : Collector T k} (hthins : c.Thins c')
    (hconfig : c'.config = c.config) : c'.WithinLimit where
  toDistinct := hthins.distinct h.toDistinct
  ordinary_le := calc
    c'.ordinary.length = (c'.names.filter fun n => !(n.2 == .overflow)).length := c'.length_ordinary
    _ ≤ (c.names.filter fun n => !(n.2 == .overflow)).length := (hthins.names.filter _).length_le
    _ = c.ordinary.length := c.length_ordinary.symm
    _ ≤ c'.config.limit := hconfig ▸ h.ordinary_le

end WithinLimit

end Collector

/-! ## What acquiring does -/

/-- A series, who holds it left out of account. -/
def Series.unheld (s : Series T k) : Series T k := { s with holders := 0 }

namespace Collector

/-- A collector, who holds its series left out of account. -/
def unheld (c : Collector T k) : Collector T k :=
  { c with live := c.live.map Series.unheld, detached := c.detached.map Series.unheld }

/-- Changing a series in what only its holders could tell apart changes nothing else. -/
theorem unheld_updateSeries (c : Collector T k) (id : Nat) {f : Series T k → Series T k}
    (hf : ∀ s, (f s).unheld = s.unheld) : (c.updateSeries id f).unheld = c.unheld := by
  have hmap : ∀ l : List (Series T k),
      (l.map fun s => if s.id = id then f s else s).map Series.unheld = l.map Series.unheld := by
    intro l
    rw [List.map_map]
    refine List.map_congr_left fun s _ => ?_
    rw [Function.comp_apply]
    split
    · exact hf s
    · rfl
  rw [unheld, updateSeries, hmap, hmap]
  rfl

/-- To take a series in hand changes who holds it, and nothing else. -/
theorem unheld_take (c : Collector T k) (s : Series T k) : (c.take s).2.unheld = c.unheld :=
  c.unheld_updateSeries s.id fun _ => rfl

variable [Quantity T]

/-- A collector with one more series that nothing is recorded in. -/
def withSeries (c : Collector T k) (set : AttributeSet) : Collector T k :=
  let series := { id := c.nextId, attributes := set, holders := 0, handle := .fresh k c.sampling }
  { c with live := c.live ++ [series], nextId := c.nextId + 1 }

/-- Opening a series adds one that nothing is recorded in. -/
theorem unheld_openSeries (c : Collector T k) (set : AttributeSet) :
    (c.openSeries set).2.unheld = c.unheld.withSeries set := by
  simp [openSeries, unheld, withSeries, Series.unheld]

/-- What it means that a recorder who looks for a set gets the answer: the identity of a series and
the collector as it goes on. -/
structure Routes (c : Collector T k) (set : AttributeSet) (answer : Nat × Collector T k) :
    Prop where
  /-- The live series of the set is found, and nothing changes. -/
  known : ∀ s ∈ c.live, (s.attributes == set) = true →
    answer.1 = s.id ∧ answer.2.unheld = c.unheld
  /-- While there is room, a new set opens a series of its own. -/
  room : ¬ c.Stores set → c.ordinary.length < c.config.limit →
    answer.1 = c.nextId ∧ answer.2.unheld = c.unheld.withSeries set
  /-- At the limit, a new set shares the overflow series, which is counted. -/
  shared : ¬ c.Stores set → c.config.limit ≤ c.ordinary.length →
    ∀ s ∈ c.live, (s.attributes == .overflow) = true →
      answer.1 = s.id ∧
        answer.2.unheld = { c.unheld with overflowCount := c.overflowCount + 1 }
  /-- If there is none yet, it is opened, which is counted too. -/
  overflows : ¬ c.Stores set → c.config.limit ≤ c.ordinary.length → ¬ c.Stores .overflow →
    answer.1 = c.nextId ∧
      answer.2.unheld =
        { c.unheld with overflowCount := c.overflowCount + 1 }.withSeries .overflow

/-! The four ways to acquire a series. -/

/-- The series of a set that is known is taken in hand. -/
theorem acquire_of_known {c : Collector T k} {set : AttributeSet} {s : Series T k}
    (hset : c.find? set = some s) : c.acquire set = c.take s := by
  simp only [acquire, hset]

/-- Below the limit, a series is opened for a new set. -/
theorem acquire_of_room {c : Collector T k} {set : AttributeSet} (hset : c.find? set = none)
    (hlimit : c.isAtLimit = false) : c.acquire set = c.openSeries set := by
  simp only [acquire, hset, hlimit]
  rfl

/-- At the limit, a new set is given the overflow series, and counted. -/
theorem acquire_of_shared {c : Collector T k} {set : AttributeSet} {s : Series T k}
    (hset : c.find? set = none) (hlimit : c.isAtLimit = true) (hover : c.find? .overflow = some s) :
    c.acquire set = { c with overflowCount := c.overflowCount + 1 }.take s := by
  have hover' : ({ c with overflowCount := c.overflowCount + 1 } : Collector T k).find? .overflow =
      some s := hover
  simp only [acquire, hset, hlimit, hover', if_true]

/-- At the limit, the first of the new sets opens the overflow series, and is counted. -/
theorem acquire_of_overflows {c : Collector T k} {set : AttributeSet} (hset : c.find? set = none)
    (hlimit : c.isAtLimit = true) (hover : c.find? .overflow = none) :
    c.acquire set = { c with overflowCount := c.overflowCount + 1 }.openSeries .overflow := by
  have hover' : ({ c with overflowCount := c.overflowCount + 1 } : Collector T k).find? .overflow =
      none := hover
  simp only [acquire, hset, hlimit, hover', if_true]

/-- Looking for a live series finds, if anything, what acquiring gives. -/
theorem acquire_of_acquire? {c : Collector T k} {set : AttributeSet} {answer : Nat × Collector T k}
    (h : c.acquire? set = some answer) : c.acquire set = answer := by
  unfold acquire? at h
  -- as for `acquire`: is the set known, and if not, is there room?
  cases hset : c.find? set with
  | some s =>
    rw [hset] at h
    rw [acquire_of_known hset]
    exact Option.some.inj h
  | none =>
    rw [hset] at h
    cases hlimit : c.isAtLimit with
    | false => simp [hlimit] at h
    | true =>
      simp only [hlimit, if_true, Option.map_eq_some_iff] at h
      obtain ⟨s, hover, rfl⟩ := h
      exact acquire_of_shared hset hlimit hover

/-- Looking for a live series fails only where a series has to be opened. -/
theorem acquire_of_acquire?_eq_none {c : Collector T k} {set : AttributeSet}
    (h : c.acquire? set = none) : (c.acquire set).1 = c.nextId := by
  unfold acquire? at h
  cases hset : c.find? set with
  | some s => simp [hset] at h
  | none =>
    cases hlimit : c.isAtLimit with
    | false =>
      rw [acquire_of_room hset hlimit]
      rfl
    | true =>
      simp only [hset, hlimit, if_true, Option.map_eq_none_iff] at h
      rw [acquire_of_overflows hset hlimit h]
      rfl

namespace WithinLimit

variable {c : Collector T k}

/-- Room for an ordinary series is needed only if the new one is ordinary. -/
theorem openSeries (h : c.WithinLimit) {set : AttributeSet} (hset : c.find? set = none)
    (hroom : (set == .overflow) = true ∨ c.ordinary.length < c.config.limit) :
    (c.openSeries set).2.WithinLimit where
  toDistinct := h.toDistinct.openSeries hset
  ordinary_le := by
    have hle := h.ordinary_le
    show (c.openSeries set).2.ordinary.length ≤ c.config.limit
    rw [length_ordinary, names_openSeries, List.filter_append, List.length_append,
      ← length_ordinary]
    -- the overflow series is not among the ordinary ones; an ordinary one makes them one more
    rcases hroom with hover | hroom
    · simpa [hover] using hle
    · have hnew := List.length_filter_le (fun n : Nat × AttributeSet => !(n.2 == .overflow))
        [(c.nextId, set)]
      rw [List.length_singleton] at hnew
      omega

/-- Acquiring never leads beyond the limit: an ordinary series is opened only if there is room for
it, and the overflow series is not ordinary. -/
theorem acquire (h : c.WithinLimit) (set : AttributeSet) : (c.acquire set).2.WithinLimit := by
  have htake (d : Collector T k) (s : Series T k) : d.Thins (d.take s).2 :=
    .of_names_eq (d.names_take s) rfl
  have hcount : ({ c with overflowCount := c.overflowCount + 1 } : Collector T k).WithinLimit :=
    h.thins (.of_names_eq rfl rfl) rfl
  cases hset : c.find? set with
  | some s =>
    rw [acquire_of_known hset]
    exact h.thins (htake c s) rfl
  | none =>
    cases hlimit : c.isAtLimit with
    | false =>
      have hroom : ¬ c.config.limit ≤ c.ordinary.length := by
        rw [← h.toDistinct.isAtLimit_iff, hlimit]
        exact Bool.false_ne_true
      rw [acquire_of_room hset hlimit]
      exact h.openSeries hset (.inr (Nat.lt_of_not_le hroom))
    | true =>
      cases hover : c.find? .overflow with
      | some s =>
        rw [acquire_of_shared hset hlimit hover]
        exact hcount.thins (htake _ s) rfl
      | none =>
        rw [acquire_of_overflows hset hlimit hover]
        exact hcount.openSeries hover (.inl (by decide +kernel))

/-- Within the limit, acquiring does what is said of a recorder who looks for a set. -/
theorem routes_acquire (h : c.WithinLimit) (set : AttributeSet) : c.Routes set (c.acquire set) where
  known s hs hset := by
    rw [acquire_of_known (h.toDistinct.find?_of_beq hs hset)]
    exact ⟨rfl, c.unheld_take s⟩
  room hnew hroom := by
    have hlimit : c.isAtLimit = false := by
      rw [← Bool.not_eq_true, h.toDistinct.isAtLimit_iff]
      omega
    rw [acquire_of_room (c.find?_eq_none_iff.2 hnew) hlimit]
    exact ⟨rfl, c.unheld_openSeries set⟩
  shared hnew hfull s hs hset := by
    have hlimit := h.toDistinct.isAtLimit_iff.2 hfull
    rw [acquire_of_shared (c.find?_eq_none_iff.2 hnew) hlimit (h.toDistinct.find?_of_beq hs hset)]
    exact ⟨rfl, unheld_take _ s⟩
  overflows hnew hfull hnone := by
    have hlimit := h.toDistinct.isAtLimit_iff.2 hfull
    rw [acquire_of_overflows (c.find?_eq_none_iff.2 hnew) hlimit (c.find?_eq_none_iff.2 hnone)]
    exact ⟨rfl, unheld_openSeries _ .overflow⟩

/-! ## Over a run -/

omit [Quantity T] in
/-- A new collector has no series. -/
theorem new (sampling : SamplingPlan T) (stream : Stream) (config : ReaderConfig) :
    (Collector.new sampling stream config : Collector T k).WithinLimit where
  toDistinct := ⟨List.nodup_nil, List.Pairwise.nil, nofun⟩
  ordinary_le := Nat.zero_le _

/-- No command leads beyond the limit: it acquires one series at most, and then takes series away,
if anything. -/
theorem perform (h : c.WithinLimit) (command : Command T) :
    (c.perform command).2.WithinLimit := by
  have hconfig : (c.perform command).2.config = c.config :=
    congrArg Settings.config (settings_perform c command)
  rcases c.thins_perform command with hthins | ⟨set, -, hthins⟩
  · exact h.thins hthins hconfig
  · have hset : (c.acquire set).2.config = c.config :=
      congrArg Settings.config (settings_acquire c set)
    exact (h.acquire set).thins hthins (hconfig.trans hset.symm)

/-- No run of commands leads beyond the limit. -/
theorem run (h : c.WithinLimit) (commands : List (Command T)) :
    (c.run commands).2.WithinLimit := by
  induction commands generalizing c with
  | nil => exact h
  | cons command rest ih => exact ih (h.perform command)

end WithinLimit

/-- **The limit.** After any commands, with any sets and beyond a shutdown too, no more ordinary
series are live than the limit allows, and one more for the overflow series at most. A recorder who
looks for a set gets the live series of the set, or a new one while there is room, or else the one
overflow series; the look for a live series that comes first answers the same as the acquiring that
may follow, unless a series has to be opened. -/
theorem series_stay_within_limit (sampling : SamplingPlan T) (stream : Stream)
    (config : ReaderConfig) (commands : List (Command T)) :
    let c : Collector T k := ((new sampling stream config).run commands).2
    c.ordinary.length ≤ config.limit ∧
      c.overflowing.length ≤ 1 ∧
      c.seriesCount ≤ config.limit + 1 ∧
      (∀ s ∈ c.live, s.id ≠ c.nextId) ∧
      ∀ set, c.Routes set (c.acquire set) ∧
        (∀ answer, c.acquire? set = some answer → c.Routes set answer) ∧
        (c.acquire? set = none → (c.acquire set).1 = c.nextId) := by
  intro c
  have hwithin : c.WithinLimit := (WithinLimit.new sampling stream config).run commands
  have hconfig : c.config = config := congrArg Settings.config (settings_run _ commands)
  refine ⟨hconfig ▸ hwithin.ordinary_le, ?_, hconfig ▸ hwithin.seriesCount_le, fun s hs => ?_,
    fun set => ⟨hwithin.routes_acquire set, fun answer hanswer => ?_, acquire_of_acquire?_eq_none⟩⟩
  · rw [hwithin.toDistinct.length_overflowing]
    split <;> omega
  · exact Nat.ne_of_lt (hwithin.lt_nextId s.name (List.mem_map_of_mem hs))
  · rw [← acquire_of_acquire? hanswer]
    exact hwithin.routes_acquire set

end Collector

end Metering
