import Metering.Proofs.Collector.Accounts
import Metering.Proofs.Collector.Routing
import Metering.Proofs.Tally.Merging

/-!
# Collectors with different limits

Of two collectors that take the same recordings and evict nothing, the one with the lower limit
tracks the first of the sets that the other one tracks (`Narrows`). The recordings of all sets that
it does not track are in its overflow series; with the other collector they are parted among further
series, its own overflow series included (`perm_received`). -/

namespace Metering

variable {T : Type} {k : Kind}

/-! ## Parts of a ledger -/

/-- What went into a series, by the entries that name it. -/
theorem received_eq_map_filter (entries : List (Entry T)) (id : Nat) :
    received entries id = (entries.filter (·.series == id)).map (·.recording) := by
  induction entries with
  | nil => rfl
  | cons e rest ih =>
    rw [received] at ih
    by_cases hid : e.series = id <;> simp [received, hid, ih]

/-- Entries of distinct series are parted by the series. -/
theorem perm_received {entries : List (Entry T)} {ids : List Nat} (hids : ids.Nodup)
    (hentries : ∀ e ∈ entries, e.series ∈ ids) :
    (ids.map (received entries)).flatten.Perm (entries.map (·.recording)) := by
  induction ids generalizing entries with
  | nil =>
    have hnil : entries = [] := List.eq_nil_iff_forall_not_mem.2 fun e he =>
      List.not_mem_nil (hentries e he)
    rw [hnil]
    exact .refl _
  | cons id rest ih =>
    obtain ⟨hid, hrest⟩ := List.nodup_cons.1 hids
    -- the other series have the same entries once those of the first series are gone
    let others := entries.filter fun e => !(e.series == id)
    have hothers : rest.map (received entries) = rest.map (received others) := by
      refine List.map_congr_left fun other hother => ?_
      rw [received_eq_map_filter, received_eq_map_filter, List.filter_filter]
      refine congrArg _ (List.filter_congr fun e _ => ?_)
      have hne : other ≠ id := fun heq => hid (heq ▸ hother)
      by_cases heq : e.series = other <;> simp [heq, hne]
    have hperm : (rest.map (received others)).flatten.Perm (others.map (·.recording)) := by
      refine ih hrest fun e he => ?_
      obtain ⟨he, hne⟩ := List.mem_filter.1 he
      exact (List.mem_cons.1 (hentries e he)).resolve_left (by simpa using hne)
    rw [List.map_cons, List.flatten_cons, hothers, received_eq_map_filter]
    refine (hperm.append_left _).trans ?_
    rw [← List.map_append]
    exact (List.filter_append_perm (fun e : Entry T => e.series == id) entries).map _

namespace Collector

/-! ## Limits -/

/-- Two collectors that allow the same keys, of which one tracks the first of the sets that the
other tracks, as far as its lower limit goes. -/
structure Narrows (coarse fine : Collector T k) : Prop where
  filter : coarse.config.filter = fine.config.filter
  limit : coarse.config.limit ≤ fine.config.limit
  sets : coarse.ordinarySets = fine.ordinarySets.take coarse.config.limit

namespace Narrows

variable {coarse fine : Collector T k}

/-- Both find the same set for a recording. -/
theorem setOf_eq (h : coarse.Narrows fine) : coarse.setOf = fine.setOf := by
  funext r
  rw [setOf, setOf, h.filter]

/-- An ordinary set of the coarse collector is one of the fine collector. -/
theorem subset (h : coarse.Narrows fine) {set : AttributeSet} (hset : set ∈ coarse.ordinarySets) :
    set ∈ fine.ordinarySets :=
  List.mem_of_mem_take (h.sets ▸ hset)

/-- Without series, a collector with less room narrows one with more. -/
theorem new (sampling sampling' : SamplingPlan T) (stream stream' : Stream)
    {config config' : ReaderConfig} (hfilter : config.filter = config'.filter)
    (hlimit : config.limit ≤ config'.limit) :
    (Collector.new sampling stream config : Collector T k).Narrows
      (Collector.new sampling' stream' config') :=
  ⟨hfilter, hlimit, List.take_nil.symm⟩

/-- Both collectors enter a set, or only the one with more room does, or neither. -/
theorem acquire (h : coarse.Narrows fine) {set : AttributeSet}
    {answer answer' : Nat × Collector T k}
    (hcoarse : coarse.Enters set answer) (hfine : fine.Enters set answer') :
    answer.2.Narrows answer'.2 := by
  refine ⟨hcoarse.config ▸ hfine.config ▸ h.filter, hcoarse.config ▸ hfine.config ▸ h.limit, ?_⟩
  have hsets := h.sets
  have hlimit := h.limit
  have hlength : coarse.ordinarySets.length =
      min coarse.config.limit fine.ordinarySets.length := by
    rw [hsets, List.length_take]
  rw [hcoarse.config]
  by_cases hover : set = .overflow
  · rw [hcoarse.unchanged (.inr (.inl hover)), hfine.unchanged (.inr (.inl hover)), hsets]
  by_cases hknown : set ∈ fine.ordinarySets
  · rw [hfine.unchanged (.inl hknown)]
    -- a set that only the other collector tracks was beyond the limit
    have hkeeps : set ∈ coarse.ordinarySets ∨
        coarse.config.limit ≤ coarse.ordinarySets.length := by
      by_cases hfull : coarse.config.limit ≤ fine.ordinarySets.length
      · exact .inr (by omega)
      · rw [hsets, List.take_of_length_le (by omega)]
        exact .inl hknown
    rw [hcoarse.unchanged (hkeeps.imp_right .inr), hsets]
  have hunknown : set ∉ coarse.ordinarySets := fun hmem => hknown (h.subset hmem)
  by_cases hroom : coarse.ordinarySets.length < coarse.config.limit
  · -- while the first collector has room, both have the same sets
    have hsame : coarse.ordinarySets = fine.ordinarySets := by
      rw [hsets, List.take_of_length_le (by omega)]
    have hfineRoom : fine.ordinarySets.length < fine.config.limit := by
      rw [← hsame]
      omega
    rw [hcoarse.entered hunknown hover hroom, hfine.entered hknown hover hfineRoom, hsame,
      List.take_of_length_le]
    rw [List.length_append, List.length_singleton, ← hsame]
    omega
  · rw [hcoarse.unchanged (.inr (.inr (by omega))), hsets]
    by_cases hfineRoom : fine.ordinarySets.length < fine.config.limit
    · rw [hfine.entered hknown hover hfineRoom, List.take_append_of_le_length (by omega)]
    · rw [hfine.unchanged (.inr (.inr (by omega)))]

/-- Narrowing is about names and configurations only. -/
theorem of_names_eq (h : coarse.Narrows fine) {coarse' fine' : Collector T k}
    (hconfig : coarse'.config = coarse.config) (hconfig' : fine'.config = fine.config)
    (hnames : coarse'.names = coarse.names) (hnames' : fine'.names = fine.names) :
    coarse'.Narrows fine' := by
  refine ⟨by rw [hconfig, hconfig', h.filter], by rw [hconfig, hconfig']; exact h.limit, ?_⟩
  rw [ordinarySets_of_names_eq hnames, ordinarySets_of_names_eq hnames', hconfig, h.sets]

end Narrows

variable [Quantity T]

/-! ## The open cycle -/

/-- The recordings of a run since the last collection. -/
def openRecordings (commands : List (Command T)) : List (Recording T) :=
  commands.foldl (fun rs => fun
    | .record r => rs ++ [r]
    | .collect _ _ => []
    | _ => rs) []

omit [Quantity T] in
/-- The recordings of the open cycle are some of all, in their order. -/
theorem openRecordings_sublist (commands : List (Command T)) :
    (openRecordings commands).Sublist (commands.filterMap Command.recording?) := by
  induction commands using List.reverseRecOn with
  | nil => exact .slnil
  | append_singleton commands last ih =>
    rw [openRecordings, List.foldl_append, ← openRecordings, List.filterMap_append]
    cases last with
    | record r => exact ih.append_right _
    | collect start time => exact List.nil_sublist _
    | hold set => exact ih.trans (List.sublist_append_left _ _)
    | recordHeld id r => exact ih.trans (List.sublist_append_left _ _)
    | drainHeld id point => exact ih.trans (List.sublist_append_left _ _)
    | release id => exact ih.trans (List.sublist_append_left _ _)
    | shutdown start time => exact ih.trans (List.sublist_append_left _ _)

/-- The open cycle of a ledger has the recordings since the last collection. -/
theorem Follows.current_ledger {c : Collector T k} (h : c.Follows {}) {commands : List (Command T)}
    (hplain : ∀ command ∈ commands, command.IsPlain) :
    (c.ledger {} commands).current.map (·.recording) = openRecordings commands := by
  induction commands using List.reverseRecOn with
  | nil => rfl
  | append_singleton commands last ih =>
    have hbefore : ∀ command ∈ commands, command.IsPlain := fun command hcommand =>
      hplain command (List.mem_append_left _ hcommand)
    have hlast := hplain last (List.mem_append_right _ List.mem_cons_self)
    have hrunning := (h.run (c.admitsAll_of_plain hbefore)).running
    rw [openRecordings, List.foldl_append, ← openRecordings, ← ih hbefore, c.ledger_append]
    cases last, hlast using Command.IsPlain.cases with
    | record r =>
      show ((c.run commands).2.note _ (.record r)).current.map _ = _
      rw [note, hrunning]
      exact List.map_append
    | collect start time => rfl

/-! ## Over a run -/

namespace Narrows

variable {coarse fine : Collector T k} {l l' : Ledger T}

/-- Recordings and collections keep the coarse collector narrow, as long as nothing is evicted. -/
theorem perform (h : coarse.Narrows fine) (hcoarse : coarse.Routed l) (hfine : fine.Routed l')
    (hidle : coarse.config.maxIdle = none) (hidle' : fine.config.maxIdle = none)
    {command : Command T} (hplain : command.IsPlain)
    (hreflexive : command.IsReflexive coarse.config.filter) :
    (coarse.perform command).2.Narrows (fine.perform command).2 := by
  cases command, hplain using Command.IsPlain.cases with
  | record r =>
    have hset : (coarse.setOf r).IsProper :=
      ⟨coarse.digested_setOf r, hreflexive⟩
    have hset' : (fine.setOf r).IsProper := h.setOf_eq ▸ hset
    have hentersCoarse := hcoarse.distinct.enters_acquire hcoarse.proper hset
    have hentersFine := hfine.distinct.enters_acquire hfine.proper hset'
    have hacquire := h.acquire hentersCoarse (h.setOf_eq ▸ hentersFine)
    refine hacquire.of_names_eq ?_ ?_ (names_record hcoarse.running r) ?_
    · exact (config_perform coarse (.record r)).trans hentersCoarse.config.symm
    · rw [h.setOf_eq]
      exact (config_perform fine (.record r)).trans hentersFine.config.symm
    · rw [h.setOf_eq]
      exact names_record hfine.running r
  | collect start time =>
    refine h.of_names_eq (config_perform coarse (.collect start time))
      (config_perform fine (.collect start time)) ?_ ?_
    · exact congrArg Roster.names
        (roster_collect hcoarse.distinct hcoarse.detached hidle start time)
    · exact congrArg Roster.names (roster_collect hfine.distinct hfine.detached hidle' start time)

/-- Over a run without evictions, the collector with the lower limit tracks the first of the sets
that the other one tracks. -/
theorem run (h : coarse.Narrows fine) (hcoarse : coarse.Routed l) (hfine : fine.Routed l')
    (hidle : coarse.config.maxIdle = none) (hidle' : fine.config.maxIdle = none)
    {commands : List (Command T)} (hplain : ∀ command ∈ commands, command.IsPlain)
    (hreflexive : ∀ command ∈ commands, command.IsReflexive coarse.config.filter) :
    (coarse.run commands).2.Narrows (fine.run commands).2 := by
  induction commands generalizing coarse fine l l' with
  | nil => exact h
  | cons command rest ih =>
    have hconfig := config_perform coarse command
    have hconfig' := config_perform fine command
    have hcommand := hplain command List.mem_cons_self
    have hset := hreflexive command List.mem_cons_self
    exact ih (h.perform hcoarse hfine hidle hidle' hcommand hset) (hcoarse.perform hcommand hset)
      (hfine.perform hcommand (h.filter ▸ hset)) (hconfig ▸ hidle) (hconfig' ▸ hidle')
      (fun other hother => hplain other (List.mem_cons_of_mem _ hother))
      fun other hother => hconfig ▸ hreflexive other (List.mem_cons_of_mem _ hother)

end Narrows

end Collector

end Metering
