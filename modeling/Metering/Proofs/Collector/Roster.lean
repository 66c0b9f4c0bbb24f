import Metering.Proofs.Collector.Ledger
import Metering.Proofs.Collector.Settings

/-!
# Which series take which recordings

Which series a recording goes into does not depend on what the series hold, nor on the collections
made so far, as long as nothing is evicted. A `Roster` is the part of a collector that decides it: the
names of the live series, the limit and the next identity. So the entries of a ledger are a function
of the recordings alone (`Collector.Follows.roll_run`).
-/

namespace Metering

variable {T : Type} {k : Kind}

/-- What acquiring a series depends on. -/
structure Roster where
  limit : Nat
  names : List (Nat × AttributeSet) := []
  nextId : Nat := 0

namespace Roster

/-- Enter a new name. -/
def openName (r : Roster) (set : AttributeSet) : Nat × Roster :=
  (r.nextId, { r with names := r.names ++ [(r.nextId, set)], nextId := r.nextId + 1 })

/-- Whether as many names are entered as the limit allows, that of the overflow series aside. -/
def isAtLimit (r : Roster) : Bool :=
  decide (r.limit ≤ r.names.length - if (r.names.find? (·.2 == .overflow)).isSome then 1 else 0)

/-- The identity that a set stands for, which may be that of the overflow series. -/
def acquire (r : Roster) (set : AttributeSet) : Nat × Roster :=
  match r.names.find? (·.2 == set) with
  | some n => (n.1, r)
  | none =>
    if r.isAtLimit then
      match r.names.find? (·.2 == .overflow) with
      | some n => (n.1, r)
      | none => r.openName .overflow
    else r.openName set

/-- Enter a recording under the identity that its set stands for. -/
def enter (filter : KeyFilter) (s : Roster × List (Entry T)) (r : Recording T) :
    Roster × List (Entry T) :=
  let acquired := s.1.acquire (filter.apply r.attributes)
  (acquired.2, s.2 ++ [⟨acquired.1, r⟩])

/-- Enter recordings one after another. -/
def roll (filter : KeyFilter) (s : Roster × List (Entry T)) (rs : List (Recording T)) :
    Roster × List (Entry T) :=
  rs.foldl (enter filter) s

/-- Names stay where they were entered. -/
theorem names_acquire (r : Roster) (set : AttributeSet) : r.names <+: (r.acquire set).2.names := by
  unfold acquire
  split
  · exact List.prefix_rfl
  · split
    · split
      · exact List.prefix_rfl
      · exact List.prefix_append _ _
    · exact List.prefix_append _ _

/-- Names stay on a roster, and others come after them. -/
theorem names_roll (filter : KeyFilter) (s : Roster × List (Entry T)) (rs : List (Recording T)) :
    s.1.names <+: (roll filter s rs).1.names := by
  induction rs generalizing s with
  | nil => exact List.prefix_rfl
  | cons r rest ih => exact (names_acquire _ _).trans (ih (enter filter s r))

end Roster

namespace Collector

/-- The part of a collector that decides which series take which recordings. -/
def roster (c : Collector T k) : Roster := ⟨c.config.limit, c.names, c.nextId⟩

/-- A roster tells whether its collector is at the limit. -/
theorem isAtLimit_roster (c : Collector T k) : c.roster.isAtLimit = c.isAtLimit := by
  have hsome : (c.names.find? (·.2 == .overflow)).isSome = (c.find? .overflow).isSome := by
    rw [← c.find?_map_name .overflow, Option.isSome_map]
  have hlength : c.names.length = c.seriesCount := List.length_map _
  rw [Roster.isAtLimit, isAtLimit]
  show decide (c.config.limit ≤ c.names.length -
    if (c.names.find? (·.2 == .overflow)).isSome then 1 else 0) = _
  rw [hsome, hlength]

/-- Taking a live series in hand gives its identity, and changes no name. -/
theorem roster_take (c : Collector T k) (s : Series T k) :
    ((c.take s).1, (c.take s).2.roster) = (s.name.1, c.roster) := by
  show (s.id, Roster.mk c.config.limit (c.take s).2.names c.nextId) = _
  rw [names_take]
  rfl

variable [Quantity T]

/-- Opening a series is one of the roster. -/
theorem roster_openSeries (c : Collector T k) (set : AttributeSet) :
    ((c.openSeries set).1, (c.openSeries set).2.roster) = c.roster.openName set := by
  show (c.nextId, Roster.mk c.config.limit (c.openSeries set).2.names (c.nextId + 1)) = _
  rw [names_openSeries]
  rfl

/-- A collector acquires as its roster does. -/
theorem roster_acquire (c : Collector T k) (set : AttributeSet) :
    ((c.acquire set).1, (c.acquire set).2.roster) = c.roster.acquire set := by
  have hfind (set : AttributeSet) : c.roster.names.find? (·.2 == set) =
      (c.find? set).map Series.name := (c.find?_map_name set).symm
  rw [Roster.acquire, hfind set, acquire]
  cases hset : c.find? set with
  | some s => exact c.roster_take s
  | none =>
    -- an unknown set opens a series, or shares the overflow series if there is no room
    dsimp only [Option.map_none]
    rw [isAtLimit_roster]
    by_cases hlimit : c.isAtLimit = true
    · rw [if_pos hlimit, if_pos hlimit, hfind .overflow]
      have hcount : ({ c with overflowCount := c.overflowCount + 1 } : Collector T k).find?
          .overflow = c.find? .overflow := rfl
      rw [hcount]
      cases c.find? .overflow with
      | some s => exact roster_take { c with overflowCount := c.overflowCount + 1 } s
      | none => exact roster_openSeries { c with overflowCount := c.overflowCount + 1 } .overflow
    · rw [if_neg hlimit, if_neg hlimit]
      exact c.roster_openSeries set

/-- Without evictions, a collection changes no name. -/
theorem roster_collect {c : Collector T k} (h : c.Distinct) (hdetached : c.detached = [])
    (hidle : c.config.maxIdle = none) (start time : Time) :
    (c.collect start time).2.roster = c.roster := by
  have hevict : (c.afterDrains time).evictIdle (c.drainedCycle start time) =
      (c.drainedCycle start time, c.afterDrains time) := by
    rw [evictIdle, show (c.afterDrains time).config.maxIdle = none from hidle]
  rw [collect_eq h hdetached, hevict, finish_snd]
  show Roster.mk c.config.limit (c.afterDrains time).names c.nextId = _
  rw [names_afterDrains]
  rfl

end Collector

/-- A command that records or collects. -/
def Command.IsPlain : Command T → Prop
  | .record _ | .collect _ _ => True
  | .hold _ | .recordHeld _ _ | .drainHeld _ _ | .release _ | .shutdown _ _ => False

/-- The cases of a command that records or collects. -/
@[elab_as_elim]
theorem Command.IsPlain.cases {motive : (command : Command T) → command.IsPlain → Prop}
    (record : ∀ r, motive (.record r) trivial)
    (collect : ∀ start time, motive (.collect start time) trivial) (command : Command T)
    (h : command.IsPlain) : motive command h := by
  cases command with
  | record r => exact record r
  | collect start time => exact collect start time
  | hold set => exact h.elim
  | recordHeld id r => exact h.elim
  | drainHeld id point => exact h.elim
  | release id => exact h.elim
  | shutdown start time => exact h.elim

namespace Collector

variable [Quantity T]

/-- Recordings and collections may always be done. -/
theorem admitsAll_of_plain (c : Collector T k) {commands : List (Command T)}
    (hplain : ∀ command ∈ commands, command.IsPlain) : c.AdmitsAll commands := by
  induction commands generalizing c with
  | nil => trivial
  | cons command rest ih =>
    refine ⟨?_, ih _ fun other hother => hplain other (List.mem_cons_of_mem _ hother)⟩
    have hcommand := hplain command List.mem_cons_self
    cases command, hcommand using Command.IsPlain.cases with
    | record r => trivial
    | collect start time => trivial

/-- Recordings end no cycle. -/
theorem ledger_closed_of_recordings (c : Collector T k) (l : Ledger T) (rs : List (Recording T)) :
    (c.ledger l (rs.map .record)).closed = l.closed := by
  induction rs generalizing c l with
  | nil => rfl
  | cons r rest ih =>
    refine (ih _ _).trans ?_
    rw [note]
    split <;> rfl

/-- The roster of a collector and the entries of its ledger after recordings and collections, if
nothing is ever evicted: those that the recordings alone give. -/
theorem Follows.roll_run {c : Collector T k} {l : Ledger T} (h : c.Follows l)
    (hidle : c.config.maxIdle = none) {commands : List (Command T)}
    (hplain : ∀ command ∈ commands, command.IsPlain) :
    ((c.run commands).2.roster, (c.ledger l commands).entries) =
      Roster.roll c.config.filter (c.roster, l.entries) (commands.filterMap Command.recording?) := by
  induction commands generalizing c l with
  | nil => rfl
  | cons command rest ih =>
    have hconfig : (c.perform command).2.config = c.config :=
      congrArg Settings.config (settings_perform c command)
    have hrest : ∀ other ∈ rest, other.IsPlain := fun other hother =>
      hplain other (List.mem_cons_of_mem _ hother)
    have hadmits := (c.admitsAll_of_plain hplain).1
    -- the rest of the run rolls on from where the command left the roster
    have ih := ih (h.perform hadmits) (hconfig ▸ hidle) hrest
    rw [hconfig] at ih
    refine ih.trans ?_
    have hcommand := hplain command List.mem_cons_self
    cases command, hcommand using Command.IsPlain.cases with
    | record r =>
      refine congrArg (fun s => Roster.roll c.config.filter s (rest.filterMap Command.recording?)) ?_
      have hacquire := c.roster_acquire (c.config.filter.apply r.attributes)
      have hentries : (c.note l (.record r)).entries =
          l.entries ++ [⟨(c.acquire (c.config.filter.apply r.attributes)).1, r⟩] := by
        rw [note, h.running]
        exact l.entries_enter _ r
      have hroster : (c.perform (.record r)).2.roster =
          (c.acquire (c.config.filter.apply r.attributes)).2.roster := by
        show (c.record r).roster = _
        rw [record_of_running h.running, roster, names_release, names_recordHeld]
        rfl
      rw [hentries, hroster, Roster.enter, ← hacquire]
    | collect start time =>
      rw [List.filterMap_cons_none rfl]
      refine congrArg (fun s => Roster.roll c.config.filter s _) (Prod.ext ?_ l.entries_close)
      exact roster_collect h.distinct h.detached hidle start time

/-- So every series stays where it was opened. -/
theorem Follows.prefix_names {c : Collector T k} {l : Ledger T} (h : c.Follows l)
    (hidle : c.config.maxIdle = none) {commands : List (Command T)}
    (hplain : ∀ command ∈ commands, command.IsPlain) : c.names <+: (c.run commands).2.names := by
  have hroll := Roster.names_roll c.config.filter (c.roster, l.entries)
    (commands.filterMap Command.recording?)
  rw [← h.roll_run hidle hplain] at hroll
  exact hroll

end Collector

end Metering
