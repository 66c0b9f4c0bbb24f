import Metering.Proofs.Collector.Cycle
import Metering.Proofs.Collector.Ledger
import Metering.Proofs.Collector.Limit

/-!
# Who holds a series

Before a shutdown, the count of holders of a live series is the number of times that the series was
taken in hand, less the number of times that it was given out of hand again (`Hands`). A recording by
attributes does both, so it leaves the count as it was.
-/

namespace Metering

variable {T : Type} {k : Kind}

/-- Whether the command gives the series of an identity out of hand. -/
def Command.releases (id : Nat) : Command T → Bool
  | .release released => released == id
  | _ => false

/-- Whether the answer puts the series of an identity in hand. -/
def Reply.holds (id : Nat) : Reply T k → Bool
  | .holding held => held == id
  | _ => false

/-- The command is a shutdown. -/
def Command.IsShutdown : Command T → Prop
  | .shutdown _ _ => True
  | _ => False

instance : (command : Command T) → Decidable command.IsShutdown
  | .shutdown _ _ => inferInstanceAs (Decidable True)
  | .record _ | .hold _ | .recordHeld _ _ | .drainHeld _ _ | .release _ | .collect _ _ =>
    inferInstanceAs (Decidable False)

namespace Collector

variable [Quantity T]

/-- What may be done before a shutdown: recorders use, drain and release only series that they have in
hand. -/
def Permits (c : Collector T k) (command : Command T) : Prop :=
  ¬ command.IsShutdown ∧
    match command with
    | .recordHeld id _ | .drainHeld id _ | .release id => c.IsHeld id
    | _ => True

/-- Commands each of which is permitted when its turn comes. -/
def PermitsAll (c : Collector T k) : List (Command T) → Prop
  | [] => True
  | command :: rest => c.Permits command ∧ (c.perform command).2.PermitsAll rest

instance (c : Collector T k) : (command : Command T) → Decidable (c.Permits command)
  | .recordHeld id _ | .drainHeld id _ | .release id =>
    inferInstanceAs (Decidable (¬ False ∧ c.IsHeld id))
  | .record _ | .hold _ | .collect _ _ => inferInstanceAs (Decidable (¬ False ∧ True))
  | .shutdown _ _ => inferInstanceAs (Decidable (¬ True ∧ True))

instance decidablePermitsAll :
    (c : Collector T k) → (commands : List (Command T)) → Decidable (c.PermitsAll commands)
  | _, [] => inferInstanceAs (Decidable True)
  | c, command :: rest =>
    have : Decidable ((c.perform command).2.PermitsAll rest) := decidablePermitsAll _ rest
    inferInstanceAs (Decidable (c.Permits command ∧ (c.perform command).2.PermitsAll rest))

/-- Commands may be done one after another if the first of them may, and then the rest. -/
theorem PermitsAll.of_append {c : Collector T k} {commands more : List (Command T)}
    (h : c.PermitsAll (commands ++ more)) :
    c.PermitsAll commands ∧ (c.run commands).2.PermitsAll more := by
  induction commands generalizing c with
  | nil => exact ⟨trivial, h⟩
  | cons command rest ih =>
    obtain ⟨hrest, hmore⟩ := ih h.2
    exact ⟨⟨h.1, hrest⟩, hmore⟩

/-- The holders of the live series are those that took them in hand and did not give them out of hand
again. No identity that is yet to be given was ever in hand. -/
structure Hands (c : Collector T k) (taken given : Nat → Nat) : Prop where
  detached : c.detached = []
  holders : ∀ s ∈ c.live, s.holders + given s.id = taken s.id
  unopened : ∀ id, c.nextId ≤ id → given id = 0 ∧ taken id = 0

namespace Hands

variable {c : Collector T k} {taken given : Nat → Nat}

omit [Quantity T] in
/-- At first nobody took anything. -/
theorem new (sampling : SamplingPlan T) (stream : Stream) (config : ReaderConfig) :
    (Collector.new sampling stream config : Collector T k).Hands (fun _ => 0) fun _ => 0 :=
  ⟨rfl, nofun, fun _ _ => ⟨rfl, rfl⟩⟩

omit [Quantity T] in
/-- Steps that leave identities and holders as they are. -/
theorem of_updateSeries (h : c.Hands taken given) (id : Nat) {f : Series T k → Series T k}
    (hid : ∀ s, (f s).id = s.id) (hholders : ∀ s, (f s).holders = s.holders) :
    (c.updateSeries id f).Hands taken given := by
  refine ⟨by rw [updateSeries, h.detached, List.map_nil], fun s hs => ?_, h.unopened⟩
  obtain ⟨t, ht, rfl⟩ := List.mem_map.1 hs
  split
  · rw [hid, hholders]
    exact h.holders t ht
  · exact h.holders t ht

omit [Quantity T] in
/-- Taking a series in hand counts one more that took it. -/
theorem take (h : c.Hands taken given) {s : Series T k} (hlt : s.id < c.nextId) :
    (c.take s).2.Hands (fun id => taken id + if s.id = id then 1 else 0) given := by
  refine ⟨by rw [Collector.take, updateSeries, h.detached, List.map_nil], fun t ht => ?_,
    fun id hid => ?_⟩
  · obtain ⟨u, hu, rfl⟩ := List.mem_map.1 ht
    have hholders := h.holders u hu
    by_cases hus : u.id = s.id
    · rw [if_pos hus]
      show u.holders + 1 + given u.id = taken u.id + if s.id = u.id then 1 else 0
      rw [if_pos hus.symm]
      omega
    · rw [if_neg hus, if_neg (Ne.symm hus)]
      exact hholders
  · have hle : c.nextId ≤ id := hid
    obtain ⟨hgiven, htaken⟩ := h.unopened id hle
    rw [if_neg (by omega)]
    exact ⟨hgiven, htaken⟩

/-- A new series is in the hand of the one that opened it. -/
theorem openSeries (h : c.Hands taken given) (hlt : ∀ s ∈ c.live, s.id < c.nextId)
    (set : AttributeSet) :
    (c.openSeries set).2.Hands (fun id => taken id + if c.nextId = id then 1 else 0) given := by
  refine ⟨h.detached, fun t ht => ?_, fun id hid => ?_⟩
  · rcases List.mem_append.1 ht with ht | ht
    · have hne := hlt t ht
      rw [if_neg (by omega)]
      exact h.holders t ht
    · obtain ⟨hgiven, htaken⟩ := h.unopened c.nextId (Nat.le_refl _)
      rw [List.mem_singleton.1 ht]
      show 1 + given c.nextId = taken c.nextId + if c.nextId = c.nextId then 1 else 0
      rw [hgiven, htaken, if_pos rfl]
  · have hle : c.nextId + 1 ≤ id := hid
    obtain ⟨hgiven, htaken⟩ := h.unopened id (by omega)
    rw [if_neg (by omega)]
    exact ⟨hgiven, htaken⟩

/-- Acquiring counts one more that took the series in hand. -/
theorem acquire (h : c.Hands taken given) (hdistinct : c.Distinct) (set : AttributeSet) :
    (c.acquire set).2.Hands (fun id => taken id + if (c.acquire set).1 = id then 1 else 0) given := by
  have hlt : ∀ s ∈ c.live, s.id < c.nextId := fun s hs =>
    hdistinct.lt_nextId s.name (List.mem_map_of_mem hs)
  obtain ⟨count, hcases⟩ := c.acquire_cases set
  have hcount : ({ c with overflowCount := count } : Collector T k).Hands taken given :=
    ⟨h.detached, h.holders, h.unopened⟩
  obtain ⟨s, hs, heq⟩ | ⟨new, -, -, heq⟩ := hcases
  · rw [heq]
    exact hcount.take (hlt s hs)
  · rw [heq]
    exact hcount.openSeries hlt new

omit [Quantity T] in
/-- Releasing counts one more that gave the series out of hand. -/
theorem release (h : c.Hands taken given) (hdistinct : c.Distinct) {id : Nat} (hheld : c.IsHeld id) :
    (c.release id).Hands taken fun other => given other + if id = other then 1 else 0 := by
  obtain ⟨s, hs, hid, hpos⟩ := hheld
  rw [h.detached, List.append_nil] at hs
  have hlt : s.id < c.nextId := hdistinct.lt_nextId s.name (List.mem_map_of_mem hs)
  refine ⟨?_, fun t ht => ?_, fun other hother => ?_⟩
  · rw [Collector.release, updateSeries, h.detached, List.map_nil, List.filter_nil]
  · obtain ⟨u, hu, rfl⟩ := List.mem_map.1 ht
    have hholders := h.holders u hu
    -- the series is in one hand less than before, which is the one that gave it back
    by_cases huid : u.id = id
    · have hpos : 0 < u.holders := by rwa [hdistinct.id_inj hu hs (huid.trans hid.symm)]
      rw [if_pos huid]
      show u.holders - 1 + (given u.id + if id = u.id then 1 else 0) = taken u.id
      rw [if_pos huid.symm]
      omega
    · rw [if_neg huid, if_neg (Ne.symm huid)]
      exact hholders
  · have hle : c.nextId ≤ other := hother
    obtain ⟨hgiven, htaken⟩ := h.unopened other hle
    rw [if_neg (by omega)]
    exact ⟨hgiven, htaken⟩

/-- A recording by attributes takes a series in hand and gives it out of hand again. -/
theorem record (h : c.Hands taken given) (hwithin : c.WithinLimit) (r : Recording T) :
    (c.record r).Hands taken given := by
  cases hshut : c.shutDown with
  | true =>
    rw [Collector.record, hshut]
    exact h
  | false =>
    let set := c.config.filter.apply r.attributes
    let id := (c.acquire set).1
    have hdistinct : ((c.acquire set).2.recordHeld id r).Distinct :=
      (Thins.of_names_eq (names_recordHeld _ id r) rfl).distinct (hwithin.acquire set).toDistinct
    have hrecord : ((c.acquire set).2.recordHeld id r).Hands
        (fun other => taken other + if id = other then 1 else 0) given :=
      (h.acquire hwithin.toDistinct set).of_updateSeries id (fun _ => rfl) fun _ => rfl
    have hheld : ((c.acquire set).2.recordHeld id r).IsHeld id := by
      obtain ⟨s, hs, hid, hpos⟩ := c.acquire_live set
      exact ⟨_, List.mem_append_left _ (List.mem_map_of_mem hs), by simp [hid, id], by simpa [hid, id]⟩
    have hrelease := hrecord.release hdistinct hheld
    rw [record_of_running hshut]
    -- acquired and released again, so what was taken and given is the same for everybody else
    refine ⟨hrelease.detached, fun s hs => ?_, fun other hother => ?_⟩
    · have hholders := hrelease.holders s hs
      omega
    · obtain ⟨hgiven, htaken⟩ := hrelease.unopened other hother
      omega

/-- A collection takes nothing in hand and gives nothing out of hand. -/
theorem collect (h : c.Hands taken given) (hdistinct : c.Distinct) (start time : Time) :
    (c.collect start time).2.Hands taken given := by
  obtain ⟨live, retained, hlive, heq⟩ := collect_snd hdistinct h.detached start time
  rw [heq]
  refine ⟨h.detached, fun s hs => ?_, h.unopened⟩
  obtain ⟨t, ht, rfl⟩ := List.mem_map.1 (hlive.subset hs)
  exact h.holders t ht

/-! ## Over a run -/

/-- Every command is accounted for by what it takes in hand or gives back. -/
theorem perform (h : c.Hands taken given) (hwithin : c.WithinLimit) {command : Command T}
    (hpermits : c.Permits command) :
    (c.perform command).2.Hands
      (fun id => taken id + if (c.perform command).1.holds id then 1 else 0)
      fun id => given id + if command.releases id then 1 else 0 := by
  cases command with
  | record r => exact h.record hwithin r
  | hold set =>
    have hacquire := h.acquire hwithin.toDistinct set
    simpa [Collector.perform, Reply.holds, Command.releases] using hacquire
  | recordHeld id r => exact h.of_updateSeries id (fun _ => rfl) fun _ => rfl
  | drainHeld id point => exact h.of_updateSeries id (fun _ => rfl) fun _ => rfl
  | release id =>
    have hrelease := h.release hwithin.toDistinct hpermits.2
    simpa [Collector.perform, Reply.holds, Command.releases] using hrelease
  | collect start time => exact h.collect hwithin.toDistinct start time
  | shutdown start time => exact absurd trivial hpermits.1

/-- **Holders.** After commands that are permitted, each live series is held by those that took it in
hand and did not give it out of hand again. -/
theorem run (h : c.Hands taken given) (hwithin : c.WithinLimit) {commands : List (Command T)}
    (hpermits : c.PermitsAll commands) :
    (c.run commands).2.Hands
      (fun id => taken id + (c.run commands).1.countP (·.holds id))
      fun id => given id + commands.countP (·.releases id) := by
  induction commands generalizing c taken given with
  | nil => exact h
  | cons command rest ih =>
    have hrest := ih (h.perform hwithin hpermits.1) (hwithin.perform command) hpermits.2
    refine ⟨hrest.detached, fun s hs => ?_, fun id hid => ?_⟩
    · have hholders := hrest.holders s hs
      rw [Collector.run, List.countP_cons, List.countP_cons]
      omega
    · obtain ⟨hgiven, htaken⟩ := hrest.unopened id hid
      rw [Collector.run, List.countP_cons, List.countP_cons]
      omega

end Hands

end Collector

end Metering
