import Metering.Proofs.Collector.Ledger
import Metering.Proofs.Collector.Settings
import Mathlib.Data.List.Perm.Basic
import Mathlib.Data.List.Perm.Subperm

/-!
# Where a recording stands in a run

A ledger has recordings as they are, so two that are alike cannot be told apart in it. Their positions
in the run can: `entryAt` is the entry that the command at a position makes, and the entries of the
open cycle are those at positions after the last collection (`exists_positions`). A selection of
recordings, none taken more often than it is there, is one of positions (`exists_sources`).
-/

namespace Metering

variable {T : Type} {k : Kind} [Quantity T]

omit [Quantity T] in
/-- The commands before and after the one at a position. -/
theorem eq_take_append_cons_drop {commands : List (Command T)} {n : Nat} {command : Command T}
    (h : commands[n]? = some command) :
    commands = commands.take n ++ command :: commands.drop (n + 1) := by
  obtain ⟨hlt, rfl⟩ := List.getElem?_eq_some_iff.1 h
  rw [← List.drop_eq_getElem_cons hlt, List.take_append_drop]

omit [Quantity T] in
/-- The position of a command that no collection follows. -/
structure InOpenCycle (commands : List (Command T)) (n : Nat) : Prop where
  lt_length : n < commands.length
  no_collect : ∀ i, n < i → ∀ start time, commands[i]? ≠ some (.collect start time)

omit [Quantity T] in
/-- Only a collection ends the open cycle. -/
theorem InOpenCycle.concat {commands : List (Command T)} {n : Nat} (h : InOpenCycle commands n)
    {command : Command T} (hcommand : ∀ start time, command ≠ .collect start time) :
    InOpenCycle (commands ++ [command]) n := by
  refine ⟨?_, fun i hi start time hcollect => ?_⟩
  · rw [List.length_append]
    exact Nat.lt_add_right _ h.lt_length
  · rcases List.getElem?_eq_some_iff.1 hcollect with ⟨hlt, -⟩
    rw [List.length_append, List.length_singleton] at hlt
    by_cases hlast : i = commands.length
    · rw [hlast, List.getElem?_concat_length, Option.some_inj] at hcollect
      exact hcommand start time hcollect
    · rw [List.getElem?_append_left (by omega)] at hcollect
      exact h.no_collect i hi start time hcollect

omit [Quantity T] in
/-- The last command is in the open cycle. -/
theorem inOpenCycle_length {commands : List (Command T)} {command : Command T} :
    InOpenCycle (commands ++ [command]) commands.length := by
  refine ⟨by simp, fun i hi start time hcollect => ?_⟩
  rcases List.getElem?_eq_some_iff.1 hcollect with ⟨hlt, -⟩
  rw [List.length_append, List.length_singleton] at hlt
  omega

namespace Collector

/-- The entry that a command makes in a ledger. -/
def entryOf? (c : Collector T k) : Command T → Option (Entry T)
  | .record r =>
    if c.shutDown then none else some ⟨(c.acquire (c.config.filter.apply r.attributes)).1, r⟩
  | .recordHeld id r => some ⟨id, r⟩
  | .hold _ | .drainHeld _ _ | .release _ | .collect _ _ | .shutdown _ _ => none

/-- The entry that the command at a position of a run makes. -/
def entryAt (c : Collector T k) (commands : List (Command T)) (n : Nat) : Option (Entry T) :=
  commands[n]?.bind (c.run (commands.take n)).2.entryOf?

/-- Later commands do not change what the command at a position does. -/
theorem entryAt_append (c : Collector T k) {commands : List (Command T)} {n : Nat}
    (h : n < commands.length) (more : List (Command T)) :
    c.entryAt (commands ++ more) n = c.entryAt commands n := by
  rw [entryAt, entryAt, List.getElem?_append_left h, List.take_append_of_le_length (Nat.le_of_lt h)]

/-- The last entry is the one that the last command makes. -/
theorem entryAt_concat (c : Collector T k) (commands : List (Command T)) (command : Command T) :
    c.entryAt (commands ++ [command]) commands.length = (c.run commands).2.entryOf? command := by
  rw [entryAt, List.getElem?_concat_length, List.take_left]
  rfl

/-- A command ends the open cycle or adds the entry that it makes. -/
theorem current_note (c : Collector T k) (l : Ledger T) (command : Command T) :
    (c.note l command).current = [] ∨
      (∀ start time, command ≠ .collect start time) ∧
        (c.note l command).current = l.current ++ (c.entryOf? command).toList := by
  cases command with
  | record r =>
    refine .inr ⟨by simp, ?_⟩
    cases hshut : c.shutDown <;> simp [note, entryOf?, hshut, Ledger.enter]
  | recordHeld id r => exact .inr ⟨by simp, rfl⟩
  | hold set => exact .inr ⟨by simp, (List.append_nil _).symm⟩
  | drainHeld id point => exact .inr ⟨by simp, (List.append_nil _).symm⟩
  | release id => exact .inr ⟨by simp, (List.append_nil _).symm⟩
  | collect start time => exact .inl rfl
  | shutdown start time =>
    cases hshut : c.shutDown with
    | true => exact .inr ⟨by simp, by simp [note, entryOf?, hshut]⟩
    | false => exact .inl (by simp [note, hshut, Ledger.close])

/-- The entries of the open cycle are those that stand after the last collection, each at a position
of its own. -/
theorem exists_positions (c : Collector T k) (commands : List (Command T)) :
    ∃ positions : List Nat, positions.Nodup ∧ (∀ n ∈ positions, InOpenCycle commands n) ∧
      (c.ledger {} commands).current = positions.filterMap (c.entryAt commands) := by
  induction commands using List.reverseRecOn with
  | nil => exact ⟨[], List.nodup_nil, nofun, rfl⟩
  | append_singleton commands command ih =>
    obtain ⟨positions, hnodup, hopen, hcurrent⟩ := ih
    rw [ledger_append]
    rcases (c.run commands).2.current_note (c.ledger {} commands) command with hnil | ⟨hcommand, hnote⟩
    · exact ⟨[], List.nodup_nil, nofun, hnil⟩
    -- the positions so far stay what they are, and that of the last command is added
    · have hlt : ∀ n ∈ positions, n < commands.length := fun n hn => (hopen n hn).lt_length
      have hold : positions.filterMap (c.entryAt (commands ++ [command])) =
          positions.filterMap (c.entryAt commands) :=
        List.filterMap_congr fun n hn => c.entryAt_append (hlt n hn) [command]
      refine ⟨positions ++ [commands.length], ?_, fun n hn => ?_, ?_⟩
      · refine List.nodup_append.2 ⟨hnodup, List.nodup_singleton _, fun n hn m hm => ?_⟩
        rw [List.mem_singleton.1 hm]
        exact Nat.ne_of_lt (hlt n hn)
      · rcases List.mem_append.1 hn with hn | hn
        · exact (hopen n hn).concat hcommand
        · rw [List.mem_singleton.1 hn]
          exact inOpenCycle_length
      · show ((c.run commands).2.note (c.ledger {} commands) command).current = _
        rw [hnote, hcurrent, List.filterMap_append, hold]
        have hentry := c.entryAt_concat commands command
        cases hnew : (c.run commands).2.entryOf? command with
        | none => rw [hnew] at hentry; rw [List.filterMap_cons_none hentry]; rfl
        | some e => rw [hnew] at hentry; rw [List.filterMap_cons_some hentry]; rfl

omit [Quantity T] in
/-- What is picked from the values at positions, none more often than it is there, stands at positions
that differ from each other. -/
theorem exists_preimages {α β : Type} {f : α → Option β} {positions : List α} {picked : List β}
    (h : picked.Subperm (positions.filterMap f)) :
    ∃ ns, ns.Subperm positions ∧ List.Forall₂ (fun n b => f n = some b) ns picked := by
  obtain ⟨l, hperm, hsub⟩ := h
  obtain ⟨ns, hns, rfl⟩ := List.sublist_filterMap_iff.1 hsub
  have hall : List.Forall₂ (fun n b => f n = some b) (ns.filter fun n => (f n).isSome)
      (ns.filterMap f) := by
    clear hns hperm hsub
    induction ns with
    | nil => exact .nil
    | cons n rest ih =>
      cases hn : f n with
      | none => simpa [List.filter_cons, hn] using ih
      | some b => simpa [List.filter_cons, hn] using ih
  have hcomp : Relation.Comp (List.Forall₂ fun n b => f n = some b) List.Perm
      (ns.filter fun n => (f n).isSome) picked := ⟨_, hall, hperm⟩
  rw [List.forall₂_comp_perm_eq_perm_comp_forall₂] at hcomp
  obtain ⟨ms, hms, hpicked⟩ := hcomp
  exact ⟨ms, hms.symm.subperm.trans (List.filter_sublist.trans hns).subperm, hpicked⟩

/-- Recordings that are picked from those that a series received since the last collection were made by
commands at different positions. -/
theorem exists_sources (c : Collector T k) {commands : List (Command T)} {id : Nat}
    {accepts : Recording T → Bool} {picked : List (Recording T)}
    (h : picked.Subperm (((c.ledger {} commands).since id).filter accepts)) :
    ∃ ns : List Nat, ns.Nodup ∧
      List.Forall₂ (fun n r => InOpenCycle commands n ∧
        c.entryAt commands n = some ⟨id, r⟩ ∧ accepts r = true) ns picked := by
  obtain ⟨positions, hnodup, hopen, hcurrent⟩ := c.exists_positions commands
  rw [Ledger.since, hcurrent, received, List.filterMap_filterMap, List.filter_filterMap] at h
  obtain ⟨ns, hns, hpicked⟩ := exists_preimages h
  have hmem : ∀ n ∈ ns, InOpenCycle commands n := fun n hn => hopen n (hns.subset hn)
  obtain ⟨l, hperm, hsub⟩ := hns
  refine ⟨ns, hperm.nodup_iff.1 (hnodup.sublist hsub), ?_⟩
  -- each position that is picked holds the entry that its recording comes from
  refine ((List.forall₂_and_left ns picked).2 ⟨hmem, hpicked⟩).imp fun n r hnr => ?_
  obtain ⟨hn, hr⟩ := hnr
  rw [Option.filter_eq_some_iff, Option.bind_eq_some_iff] at hr
  obtain ⟨⟨e, he, hid⟩, haccepts⟩ := hr
  have hseries : e.series = id ∧ e.recording = r := by
    by_cases h : e.series = id
    · simpa [h] using hid
    · simp [h] at hid
  obtain ⟨rfl, rfl⟩ := hseries
  exact ⟨hn, he, haccepts⟩

end Collector

end Metering
