import Metering.Proofs.Collector.Cycle

/-!
# The ledger of a collector

A `Ledger` is the history of a collector as those see it who record and collect: which recording was
handed to which series, cut at every collection. What the collector makes of the recordings does not
show in it. `Follows` says that every live series stands where its own recordings, drained at each
collection, have brought it; commands that may be done before a shutdown keep it so.
-/

namespace Metering

variable {T : Type}

/-- A recording with the identity of the series that it went into. -/
structure Entry (T : Type) where
  series : Nat
  recording : Recording T

/-- The recordings that went into one series. -/
def received (entries : List (Entry T)) (id : Nat) : List (Recording T) :=
  entries.filterMap fun e => if e.series = id then some e.recording else none

/-- What went into a series under one list of entries and then under another. -/
theorem received_append (entries entries' : List (Entry T)) (id : Nat) :
    received (entries ++ entries') id = received entries id ++ received entries' id :=
  List.filterMap_append

/-- What went into one series is part of what went into all of them, in the same order. -/
theorem received_sublist (entries : List (Entry T)) (id : Nat) :
    (received entries id).Sublist (entries.map (·.recording)) := by
  induction entries with
  | nil => exact .slnil
  | cons e rest ih =>
    by_cases h : e.series = id
    · simpa [received, h] using ih
    · simpa [received, h] using ih.cons e.recording

/-- Nothing went into a series whose identity no entry has. -/
theorem received_eq_nil {entries : List (Entry T)} {id : Nat} :
    received entries id = [] ↔ ∀ e ∈ entries, e.series ≠ id := by
  rw [received, List.filterMap_eq_nil_iff]
  refine forall₂_congr fun e _ => ?_
  by_cases h : e.series = id <;> simp [h]

/-- What went into the series of a collector, cut at its collections. -/
structure Ledger (T : Type) where
  /-- The entries of each cycle that ended in a collection, the oldest first. -/
  closed : List (List (Entry T)) := []
  /-- The entries since the last collection. -/
  current : List (Entry T) := []

namespace Ledger

/-- Enter a recording into the open cycle. -/
def enter (l : Ledger T) (id : Nat) (r : Recording T) : Ledger T :=
  { l with current := l.current ++ [⟨id, r⟩] }

/-- End the open cycle. -/
def close (l : Ledger T) : Ledger T := { closed := l.closed ++ [l.current] }

/-- All entries, the oldest first. -/
def entries (l : Ledger T) : List (Entry T) := l.closed.flatten ++ l.current

/-- What went into a series in each of the closed cycles. -/
def past (l : Ledger T) (id : Nat) : List (List (Recording T)) := l.closed.map (received · id)

/-- What went into a series since the last collection. -/
def since (l : Ledger T) (id : Nat) : List (Recording T) := received l.current id

/-- What went into a series, cut at the collections. -/
def cycles (l : Ledger T) (id : Nat) : List (List (Recording T)) := l.past id ++ [l.since id]

/-- Closing turns the open cycle into the last of the past ones. -/
theorem past_close (l : Ledger T) (id : Nat) : l.close.past id = l.cycles id := by
  simp [close, past, cycles, since]

/-- An entry is the last recording of its own series. -/
theorem since_enter_self (l : Ledger T) (id : Nat) (r : Recording T) :
    (l.enter id r).since id = l.since id ++ [r] := by
  simp [enter, since, received]

/-- An entry does not concern other series. -/
theorem since_enter_ne (l : Ledger T) {id id' : Nat} (h : id ≠ id') (r : Recording T) :
    (l.enter id r).since id' = l.since id' := by
  simp [enter, since, received, h]

/-- An entry comes after all others. -/
theorem entries_enter (l : Ledger T) (id : Nat) (r : Recording T) :
    (l.enter id r).entries = l.entries ++ [⟨id, r⟩] := by
  simp [enter, entries]

/-- Closing a cycle loses no entries. -/
theorem entries_close (l : Ledger T) : l.close.entries = l.entries := by
  simp [close, entries]

/-- The cycles of a series hold all that went into it. -/
theorem flatten_cycles (l : Ledger T) (id : Nat) : (l.cycles id).flatten = received l.entries id := by
  have hpast : ∀ closed : List (List (Entry T)),
      (closed.map (received · id)).flatten = received closed.flatten id := by
    intro closed
    induction closed with
    | nil => rfl
    | cons c rest ih => rw [List.map_cons, List.flatten_cons, List.flatten_cons, received_append, ih]
  rw [cycles, List.flatten_concat, past, hpast, entries, received_append, since]

/-- A series that no entry names has only empty cycles. -/
theorem past_of_unused {l : Ledger T} {id : Nat} (h : ∀ e ∈ l.entries, e.series ≠ id) :
    ∀ rs ∈ l.past id, rs = [] := by
  intro rs hrs
  obtain ⟨c, hc, rfl⟩ := List.mem_map.1 hrs
  exact received_eq_nil.2 fun e he =>
    h e (List.mem_append_left _ (List.mem_flatten.2 ⟨c, hc, he⟩))

/-- A series that no entry names has nothing since the last collection. -/
theorem since_of_unused {l : Ledger T} {id : Nat} (h : ∀ e ∈ l.entries, e.series ≠ id) :
    l.since id = [] :=
  received_eq_nil.2 fun e he => h e (List.mem_append_right _ he)

end Ledger

/-- The recording that a command makes. -/
def Command.recording? : Command T → Option (Recording T)
  | .record r => some r
  | .recordHeld _ r => some r
  | _ => none

variable {k : Kind} [Quantity T]

namespace Collector

/-- Note in a ledger what a command does to a collector. -/
def note (c : Collector T k) (l : Ledger T) : Command T → Ledger T
  | .record r =>
    if c.shutDown then l else l.enter (c.acquire (c.config.filter.apply r.attributes)).1 r
  | .recordHeld id r => l.enter id r
  | .collect _ _ => l.close
  | .shutdown _ _ => if c.shutDown then l else l.close
  | .hold _ | .drainHeld _ _ | .release _ => l

/-- The ledger after commands that are carried out one after another. -/
def ledger (c : Collector T k) (l : Ledger T) : List (Command T) → Ledger T
  | [] => l
  | command :: rest => (c.perform command).2.ledger (c.note l command) rest

/-- Commands that follow others go on with the ledger that these leave. -/
theorem ledger_append (c : Collector T k) (l : Ledger T) (commands more : List (Command T)) :
    c.ledger l (commands ++ more) = (c.run commands).2.ledger (c.ledger l commands) more := by
  induction commands generalizing c l with
  | nil => rfl
  | cons command rest ih => exact ih (c.perform command).2 (c.note l command)

/-- Entries stay in a ledger, and others come after them. -/
theorem prefix_note (c : Collector T k) (l : Ledger T) (command : Command T) :
    l.entries <+: (c.note l command).entries := by
  have henter (id : Nat) (r : Recording T) : l.entries <+: (l.enter id r).entries := by
    rw [l.entries_enter]
    exact List.prefix_append _ _
  have hclose : l.entries <+: l.close.entries := l.entries_close ▸ List.prefix_rfl
  cases command with
  | record r =>
    rw [note]
    split
    · exact List.prefix_rfl
    · exact henter _ r
  | recordHeld id r => exact henter id r
  | collect start time => exact hclose
  | shutdown start time =>
    rw [note]
    split
    · exact List.prefix_rfl
    · exact hclose
  | hold set => exact List.prefix_rfl
  | drainHeld id point => exact List.prefix_rfl
  | release id => exact List.prefix_rfl

/-- A run only adds entries, too. -/
theorem prefix_ledger (c : Collector T k) (l : Ledger T) (commands : List (Command T)) :
    l.entries <+: (c.ledger l commands).entries := by
  induction commands generalizing c l with
  | nil => exact List.prefix_rfl
  | cons command rest ih => exact (c.prefix_note l command).trans (ih _ _)

/-- What may be done before a shutdown: recorders use only series that they have in hand, and leave
it to collections to drain them. -/
def Admits (c : Collector T k) : Command T → Prop
  | .recordHeld id _ | .release id => c.IsHeld id
  | .drainHeld _ _ | .shutdown _ _ => False
  | .record _ | .hold _ | .collect _ _ => True

/-- Commands each of which may be done when its turn comes. -/
def AdmitsAll (c : Collector T k) : List (Command T) → Prop
  | [] => True
  | command :: rest => c.Admits command ∧ (c.perform command).2.AdmitsAll rest

instance (c : Collector T k) (id : Nat) : Decidable (c.IsHeld id) :=
  inferInstanceAs (Decidable (∃ s ∈ c.live ++ c.detached, s.id = id ∧ 0 < s.holders))

instance (c : Collector T k) : (command : Command T) → Decidable (c.Admits command)
  | .recordHeld id _ | .release id => inferInstanceAs (Decidable (c.IsHeld id))
  | .drainHeld _ _ | .shutdown _ _ => inferInstanceAs (Decidable False)
  | .record _ | .hold _ | .collect _ _ => inferInstanceAs (Decidable True)

instance decidableAdmitsAll :
    (c : Collector T k) → (commands : List (Command T)) → Decidable (c.AdmitsAll commands)
  | _, [] => inferInstanceAs (Decidable True)
  | c, command :: rest =>
    have : Decidable ((c.perform command).2.AdmitsAll rest) := decidableAdmitsAll _ rest
    inferInstanceAs (Decidable (c.Admits command ∧ (c.perform command).2.AdmitsAll rest))

/-- Commands may be done one after another if the first of them may, and then the rest. -/
theorem AdmitsAll.of_append {c : Collector T k} {commands more : List (Command T)}
    (h : c.AdmitsAll (commands ++ more)) :
    c.AdmitsAll commands ∧ (c.run commands).2.AdmitsAll more := by
  induction commands generalizing c with
  | nil => exact ⟨trivial, h⟩
  | cons command rest ih =>
    obtain ⟨hrest, hmore⟩ := ih h.2
    exact ⟨⟨h.1, hrest⟩, hmore⟩

/-- What the recordings of a ledger make of the handle of a series. -/
def handleAfter (c : Collector T k) (l : Ledger T) (name : Nat × AttributeSet) : Handle T k :=
  ((Handle.fresh k c.sampling).replay name.2 (l.past name.1)).2.recordAll (l.since name.1)

/-- The live series are distinct and hold what the ledger says, and whatever was recorded since the
last collection is in one of them. -/
structure Follows (c : Collector T k) (l : Ledger T) : Prop where
  distinct : c.Distinct
  detached : c.detached = []
  running : c.shutDown = false
  handle : ∀ s ∈ c.live, s.handle = c.handleAfter l s.name
  lt_nextId : ∀ e ∈ l.entries, e.series < c.nextId
  live : ∀ e ∈ l.current, ∃ s ∈ c.live, s.id = e.series

namespace Follows

variable {c : Collector T k} {l : Ledger T}

/-- A new collector has no series, and its ledger no entries. -/
theorem new (sampling : SamplingPlan T) (stream : Stream) (config : ReaderConfig) :
    (Collector.new sampling stream config : Collector T k).Follows {} where
  distinct := ⟨List.nodup_nil, List.Pairwise.nil, nofun⟩
  detached := rfl
  running := rfl
  handle := nofun
  lt_nextId := nofun
  live := nofun

/-! ## Steps -/

/-- A ledger has nothing to do with the overflow count. -/
theorem overflowCount (h : c.Follows l) (count : UInt64) :
    ({ c with overflowCount := count } : Collector T k).Follows l where
  distinct := ⟨h.distinct.ids, h.distinct.sets, h.distinct.lt_nextId⟩
  detached := h.detached
  running := h.running
  handle := h.handle
  lt_nextId := h.lt_nextId
  live := h.live

/-- A change that leaves the names and the handles of series alone. -/
theorem updateSeries (h : c.Follows l) (id : Nat) {f : Series T k → Series T k}
    (hname : ∀ s, (f s).name = s.name) (hhandle : ∀ s, (f s).handle = s.handle) :
    (c.updateSeries id f).Follows l where
  distinct := h.distinct.of_sublist (c.names_updateSeries id hname ▸ List.Sublist.refl _)
    (Nat.le_refl _)
  detached := by rw [Collector.updateSeries, h.detached, List.map_nil]
  running := h.running
  handle s hs := by
    obtain ⟨t, ht, rfl⟩ := List.mem_map.1 hs
    split
    · rw [hhandle, hname]
      exact h.handle t ht
    · exact h.handle t ht
  lt_nextId := h.lt_nextId
  live e he := by
    obtain ⟨t, ht, hid⟩ := h.live e he
    refine ⟨_, List.mem_map_of_mem ht, ?_⟩
    split
    · exact (congrArg Prod.fst (hname t)).trans hid
    · exact hid

/-- No entry has the identity of the next series. -/
theorem unused (h : c.Follows l) : ∀ e ∈ l.entries, e.series ≠ c.nextId :=
  fun e he => Nat.ne_of_lt (h.lt_nextId e he)

/-- A new series holds nothing yet, and nothing was ever recorded under its identity. -/
theorem openSeries (h : c.Follows l) {set : AttributeSet} (hnew : c.find? set = none) :
    (c.openSeries set).2.Follows l where
  distinct := h.distinct.openSeries hnew
  detached := h.detached
  running := h.running
  handle s hs := by
    rcases List.mem_append.1 hs with hs | hs
    · exact h.handle s hs
    · rw [List.mem_singleton.1 hs]
      show Handle.fresh k c.sampling =
        ((Handle.fresh k c.sampling).replay set (l.past c.nextId)).2.recordAll (l.since c.nextId)
      rw [(Handle.rested_fresh k c.sampling).replay_of_nil set (Ledger.past_of_unused h.unused),
        Ledger.since_of_unused h.unused]
      rfl
  lt_nextId e he := Nat.lt_succ_of_lt (h.lt_nextId e he)
  live e he := by
    obtain ⟨s, hs, hid⟩ := h.live e he
    exact ⟨s, List.mem_append_left _ hs, hid⟩

/-- Acquiring puts a live series in hand. -/
theorem acquire (h : c.Follows l) (set : AttributeSet) :
    (c.acquire set).2.Follows l ∧
      ∃ s ∈ (c.acquire set).2.live, s.id = (c.acquire set).1 ∧ 0 < s.holders := by
  refine ⟨?_, c.acquire_live set⟩
  obtain ⟨count, ⟨s, hs, heq⟩ | ⟨new, -, hnew, heq⟩⟩ := c.acquire_cases set
  · rw [heq]
    exact (h.overflowCount count).updateSeries s.id (fun _ => rfl) fun _ => rfl
  · rw [heq]
    exact (h.overflowCount count).openSeries hnew

/-- Releasing a series concerns only its holders. -/
theorem release (h : c.Follows l) (id : Nat) : (c.release id).Follows l := by
  have hupdate := h.updateSeries id (f := fun s => { s with holders := s.holders - 1 })
    (fun _ => rfl) fun _ => rfl
  have hdetached : (c.release id).detached = [] := by
    rw [Collector.release, hupdate.detached, List.filter_nil]
  exact ⟨⟨hupdate.distinct.ids, hupdate.distinct.sets, hupdate.distinct.lt_nextId⟩, hdetached,
    hupdate.running, hupdate.handle, hupdate.lt_nextId, hupdate.live⟩

/-- A recording into a live series is an entry of that series. -/
theorem recordHeld (h : c.Follows l) {id : Nat} (hlive : ∃ s ∈ c.live, s.id = id)
    (r : Recording T) : (c.recordHeld id r).Follows (l.enter id r) where
  distinct := h.distinct.of_sublist (c.names_recordHeld id r ▸ List.Sublist.refl _) (Nat.le_refl _)
  detached := by rw [Collector.recordHeld, Collector.updateSeries, h.detached, List.map_nil]
  running := h.running
  handle s hs := by
    obtain ⟨t, ht, rfl⟩ := List.mem_map.1 hs
    dsimp only
    by_cases hid : t.id = id
    · rw [if_pos hid]
      show t.handle.record r =
        ((Handle.fresh k c.sampling).replay t.attributes (l.past t.id)).2.recordAll
          ((l.enter id r).since t.id)
      -- the series that takes the recording; for the others, the entry does not count
      rw [hid, Ledger.since_enter_self, Handle.recordAll_concat, h.handle t ht, handleAfter,
        Series.name, hid]
    · rw [if_neg hid]
      show t.handle = ((Handle.fresh k c.sampling).replay t.attributes (l.past t.id)).2.recordAll
        ((l.enter id r).since t.id)
      rw [Ledger.since_enter_ne l (Ne.symm hid)]
      exact h.handle t ht
  lt_nextId e he := by
    rw [Ledger.entries_enter] at he
    rcases List.mem_append.1 he with he | he
    · exact h.lt_nextId e he
    · obtain ⟨s, hs, rfl⟩ := hlive
      rw [List.mem_singleton.1 he]
      exact h.distinct.lt_nextId s.name (List.mem_map_of_mem hs)
  live e he := by
    have hmap : ∀ s ∈ c.live, ∃ t ∈ (c.recordHeld id r).live, t.id = s.id := fun s hs =>
      -- an entry is either an earlier one, whose series is still live, or the new one
      ⟨_, List.mem_map_of_mem hs, by split <;> rfl⟩
    rcases List.mem_append.1 he with he | he
    · obtain ⟨s, hs, hid⟩ := h.live e he
      obtain ⟨t, ht, htid⟩ := hmap s hs
      exact ⟨t, ht, htid.trans hid⟩
    · obtain ⟨s, hs, hid⟩ := hlive
      obtain ⟨t, ht, htid⟩ := hmap s hs
      rw [List.mem_singleton.1 he]
      exact ⟨t, ht, htid.trans hid⟩

/-- A collection ends the open cycle. -/
theorem collect (h : c.Follows l) (start time : Time) :
    (c.collect start time).2.Follows l.close := by
  -- what is left is drained handles, and a drained handle is that of the cycles so far, replayed
  obtain ⟨live, retained, hlive, heq⟩ := collect_snd h.distinct h.detached start time
  rw [heq]
  refine ⟨h.distinct.of_sublist (names_sublist hlive) (Nat.le_refl _), h.detached, h.running,
    fun s hs => ?_, fun e he => h.lt_nextId e (l.entries_close ▸ he), nofun⟩
  obtain ⟨t, ht, rfl⟩ := List.mem_map.1 (hlive.subset hs)
  show (t.handle.drain t.attributes).2 =
    ((Handle.fresh k c.sampling).replay t.attributes (l.close.past t.id)).2
  rw [Ledger.past_close, Ledger.cycles, Handle.replay_concat, h.handle t ht]
  rfl

/-- What a drain finds in a live series is what its last cycle holds. -/
theorem yield_tally (h : c.Follows l) {s : Series T k} (hs : s ∈ c.live) :
    s.yield.map (·.tally) = if l.since s.id = [] then none else some (k.tallyOf (l.since s.id)) := by
  rw [Series.yield, h.handle s hs]
  exact ((Handle.rested_fresh k c.sampling).replay s.attributes (l.past s.id)).drain_tally _ _

/-- A drain finds nothing in a live series exactly if nothing went into it since the last
collection. -/
theorem yield_eq_none (h : c.Follows l) {s : Series T k} (hs : s ∈ c.live) :
    s.yield = none ↔ l.since s.id = [] := by
  rw [Series.yield, h.handle s hs]
  exact ((Handle.rested_fresh k c.sampling).replay s.attributes (l.past s.id)).drain_eq_none _

/-- Every command that may be done keeps a collector in step with its ledger. -/
theorem perform (h : c.Follows l) {command : Command T} (hadmits : c.Admits command) :
    (c.perform command).2.Follows (c.note l command) := by
  cases command with
  | record r =>
    obtain ⟨hacquire, s, hs, hid, -⟩ := h.acquire (c.config.filter.apply r.attributes)
    have hrecord := (hacquire.recordHeld ⟨s, hs, hid⟩ r).release
      (c.acquire (c.config.filter.apply r.attributes)).1
    show (c.record r).Follows _
    rw [record_of_running h.running, note, h.running]
    exact hrecord
  | hold set => exact (h.acquire set).1
  | recordHeld id r =>
    obtain ⟨s, hs, hid, -⟩ := hadmits
    -- nothing is detached before a shutdown, so the series in hand is a live one
    rw [h.detached, List.append_nil] at hs
    exact h.recordHeld ⟨s, hs, hid⟩ r
  | release id => exact h.release id
  | collect start time => exact h.collect start time
  | drainHeld id point => exact hadmits.elim
  | shutdown start time => exact hadmits.elim

/-! ## Runs -/

/-- Hence every run that may be done does, by induction on its commands. -/
theorem run (h : c.Follows l) {commands : List (Command T)} (hadmits : c.AdmitsAll commands) :
    (c.run commands).2.Follows (c.ledger l commands) := by
  induction commands generalizing c l with
  | nil => exact h
  | cons command rest ih => exact ih (h.perform hadmits.1) hadmits.2

/-- A command enters the recording that it makes, and no other. -/
theorem entries_note (h : c.Follows l) {command : Command T} (hadmits : c.Admits command) :
    (c.note l command).entries.map (·.recording) =
      l.entries.map (·.recording) ++ command.recording?.toList := by
  cases command with
  | record r => simp [note, h.running, Ledger.entries_enter, Command.recording?]
  | recordHeld id r => simp [note, Ledger.entries_enter, Command.recording?]
  | hold set => simp [note, Command.recording?]
  | release id => simp [note, Command.recording?]
  | collect start time => simp [note, Ledger.entries_close, Command.recording?]
  | drainHeld id point => exact hadmits.elim
  | shutdown start time => exact hadmits.elim

/-- The recordings in a ledger are those that the commands made, in their order. -/
theorem entries_ledger (h : c.Follows l) {commands : List (Command T)}
    (hadmits : c.AdmitsAll commands) :
    (c.ledger l commands).entries.map (·.recording) =
      l.entries.map (·.recording) ++ commands.filterMap Command.recording? := by
  induction commands generalizing c l with
  | nil => simp [ledger]
  | cons command rest ih =>
    rw [ledger, ih (h.perform hadmits.1) hadmits.2, h.entries_note hadmits.1, List.append_assoc]
    cases hrec : command.recording? <;> simp [hrec]

/-! ## New names -/

/-- A command leaves series that are live already, or new ones with identities not used before. -/
theorem names_perform (h : c.Follows l) {command : Command T} (hadmits : c.Admits command) :
    c.Precedes (c.perform command).2 := by
  cases command with
  | record r =>
    have hacquire := c.precedes_acquire (c.config.filter.apply r.attributes)
    show c.Precedes (c.record r)
    rw [record_of_running h.running]
    exact (hacquire.of_names_eq (names_recordHeld _ _ r) rfl).of_names_eq (names_release _ _) rfl
  | hold set => exact c.precedes_acquire set
  | recordHeld id r => exact (Precedes.refl c).of_names_eq (c.names_recordHeld id r) rfl
  | release id => exact (Precedes.refl c).of_names_eq (c.names_release id) rfl
  | collect start time =>
    obtain ⟨live, retained, hlive, heq⟩ := collect_snd h.distinct h.detached start time
    refine ⟨?_, fun n hn => .inl ?_⟩
    · exact Nat.le_of_eq (congrArg Collector.nextId heq).symm
    · change n ∈ (c.collect start time).2.names at hn
      rw [heq] at hn
      exact (names_sublist hlive).subset hn
  | drainHeld id point => exact hadmits.elim
  | shutdown start time => exact hadmits.elim

/-- A run leaves series that are live already, or new ones with identities not used before. -/
theorem names_run (h : c.Follows l) {commands : List (Command T)} (hadmits : c.AdmitsAll commands) :
    c.Precedes (c.run commands).2 := by
  induction commands generalizing c l with
  | nil => exact .refl c
  | cons command rest ih =>
    exact (h.names_perform hadmits.1).trans (ih (h.perform hadmits.1) hadmits.2)

end Follows

end Collector

end Metering
