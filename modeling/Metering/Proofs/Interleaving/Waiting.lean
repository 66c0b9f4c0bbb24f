import Metering.Proofs.Collector.Retention
import Metering.Proofs.Interleaving.Steps

/-!
# What waits in the handles

At any time, between any two steps, the handle of each live series holds what the journal says waits
in it, and nothing waits anywhere else (`Sound`). Moves of recorders keep it so, and so do the steps of
the reader, each of which drains a live series, takes live series away together with what waits in
them, or leaves them alone. Live series also count the recorders that have them in hand (`InHands`),
which is what an eviction goes by.
-/

namespace Metering

variable {T : Type} {k : Kind}

namespace Collector

/-- Series came to a collector, if anything, and nothing was collected. -/
structure Grows (c c' : Collector T k) : Prop extends c.Precedes c' where
  stays : ∀ n ∈ c.names, n ∈ c'.names
  retained : c'.retained = c.retained
  config : c'.config = c.config

namespace Grows

/-- A step that leaves the names and all that is kept leaves all that growing asks for. -/
theorem of_names_eq {c c' : Collector T k} (hnames : c'.names = c.names)
    (hnext : c'.nextId = c.nextId) (hretained : c'.retained = c.retained)
    (hconfig : c'.config = c.config) : c.Grows c' where
  toPrecedes := (Precedes.refl c).of_names_eq hnames hnext
  stays _ hn := hnames ▸ hn
  retained := hretained
  config := hconfig

end Grows

/-- Which identities are live is said by the names. -/
theorem exists_live_of_names_eq {c c' : Collector T k} (hnames : c'.names = c.names) {id : Nat}
    (h : ∃ s ∈ c.live, s.id = id) : ∃ s ∈ c'.live, s.id = id := by
  obtain ⟨s, hs, rfl⟩ := h
  have hname : s.name ∈ c'.names := hnames ▸ List.mem_map_of_mem hs
  obtain ⟨t, ht, hts⟩ := List.mem_map.1 hname
  exact ⟨t, ht, congrArg Prod.fst hts⟩

end Collector

variable [Quantity T]

/-- A series in which something waited is not idle after its drain. -/
theorem Series.idle_tick (s : Series T k) {rs : List (Recording T)} (h : s.handle.Holds rs)
    (hrs : rs ≠ []) (old : Option (Retained T k)) : (s.tick old).idle = 0 := by
  have htally : s.yield.map (·.tally) = k.tally? rs := h.drain_tally s.attributes
  cases hyield : s.yield with
  | none =>
    rw [hyield] at htally
    exact absurd (Kind.tally?_eq_none.1 htally.symm) hrs
  | some a => simp [Series.tick, hyield]

namespace Collector

/-- Acquiring only adds series. -/
theorem grows_acquire (c : Collector T k) (set : AttributeSet) : c.Grows (c.acquire set).2 := by
  refine ⟨c.precedes_acquire set, fun n hn => ?_, ?_, congrArg Settings.config
    (settings_acquire c set)⟩
  all_goals obtain ⟨count, ⟨s, -, heq⟩ | ⟨new, -, -, heq⟩⟩ := c.acquire_cases set
  all_goals rw [heq]
  · rw [names_take]
    exact hn
  · rw [names_openSeries]
    exact List.mem_append_left _ hn
  · rfl
  · rfl

/-- Whatever a recorder does, it only adds series. -/
theorem grows_move (c : Collector T k) (move : Move T) : c.Grows (c.move move) := by
  cases move with
  | acquire set => exact c.grows_acquire set
  | fold id r => exact .of_names_eq (c.names_recordHeld id r) rfl rfl rfl
  | drain id point => exact .of_names_eq (c.names_drainHeld id point) rfl rfl rfl
  | release id => exact .of_names_eq (c.names_release id) rfl rfl rfl

/-! ## Handles and the journal -/

/-- Every live series can be told apart and holds what the journal says waits in it. Nothing waits
elsewhere, and no recording is of a series that is yet to be opened. -/
structure Sound (c : Collector T k) (j : Journal T) : Prop extends c.Distinct where
  detached : c.detached = []
  reflexive : ∀ n ∈ c.names, (n.2 == n.2) = true
  holds : ∀ s ∈ c.live, s.handle.Holds (j s.id).waiting
  live : ∀ id, (j id).waiting ≠ [] → ∃ s ∈ c.live, s.id = id
  unissued : ∀ id, c.nextId ≤ id → (j id).all = []

namespace Sound

variable {c : Collector T k} {j : Journal T}

/-- A new collector is sound, with a journal that is empty. -/
theorem new (sampling : SamplingPlan T) (stream : Stream) (config : ReaderConfig) :
    (Collector.new sampling stream config : Collector T k).Sound fun _ => {} where
  toDistinct := ⟨List.nodup_nil, List.Pairwise.nil, nofun⟩
  detached := rfl
  reflexive := nofun
  holds := nofun
  live _ h := absurd rfl h
  unissued _ _ := rfl

/-- Live series have sets that equal themselves. -/
theorem self_beq (h : c.Sound j) {s : Series T k} (hs : s ∈ c.live) :
    (s.attributes == s.attributes) = true :=
  h.reflexive s.name (List.mem_map_of_mem hs)

/-- Live series have identities that were given. -/
theorem id_lt (h : c.Sound j) {s : Series T k} (hs : s ∈ c.live) : s.id < c.nextId :=
  h.lt_nextId s.name (List.mem_map_of_mem hs)

/-- A change that the live series have no part in. -/
theorem of_live_eq (h : c.Sound j) {c' : Collector T k} (hlive : c'.live = c.live)
    (hdetached : c'.detached = c.detached) (hnext : c'.nextId = c.nextId) : c'.Sound j := by
  have hnames : c'.names = c.names := congrArg (List.map Series.name) hlive
  refine ⟨h.toDistinct.of_sublist (hnames ▸ .refl _) (Nat.le_of_eq hnext.symm),
    hdetached.trans h.detached, hnames ▸ h.reflexive, hlive ▸ h.holds, hlive ▸ h.live, ?_⟩
  rw [hnext]
  exact h.unissued

/-- A change to one live series, noted in the journal. -/
theorem updateSeries (h : c.Sound j) {id : Nat} (hid : ∃ s ∈ c.live, s.id = id)
    {f : Series T k → Series T k} (hname : ∀ s, (f s).name = s.name) {p : Passage T}
    (hp : ∀ s ∈ c.live, s.id = id → (f s).handle.Holds p.waiting) :
    (c.updateSeries id f).Sound (Function.update j id p) := by
  have hnames : (c.updateSeries id f).names = c.names := c.names_updateSeries id hname
  refine ⟨h.toDistinct.of_sublist (hnames ▸ .refl _) (Nat.le_refl _), ?_, hnames ▸ h.reflexive, ?_,
    ?_, ?_⟩
  · rw [Collector.updateSeries, h.detached, List.map_nil]
  · intro s hs
    obtain ⟨t, ht, rfl⟩ := List.mem_map.1 hs
    -- the passage that changes is that of the series that changes
    by_cases htid : t.id = id
    · have hfid : (f t).id = t.id := congrArg Prod.fst (hname t)
      rw [if_pos htid, hfid, htid, Function.update_self]
      exact hp t ht htid
    · rw [if_neg htid, Function.update_of_ne htid]
      exact h.holds t ht
  · intro other hother
    refine exists_live_of_names_eq hnames ?_
    by_cases hne : other = id
    · exact hne ▸ hid
    · rw [Function.update_of_ne hne] at hother
      exact h.live other hother
  -- an identity that was not given yet is not that of the series
  · intro other hother
    obtain ⟨s, hs, rfl⟩ := hid
    have hlt := h.id_lt hs
    have hne : other ≠ s.id := by
      change c.nextId ≤ other at hother
      omega
    rw [Function.update_of_ne hne]
    exact h.unissued other hother

/-- A change to one live series that leaves its handle alone. -/
theorem updateHolders (h : c.Sound j) {id : Nat} (hid : ∃ s ∈ c.live, s.id = id)
    (holders : Nat → Nat) :
    (c.updateSeries id fun s => { s with holders := holders s.holders }).Sound j := by
  have hupdate := h.updateSeries hid (f := fun s => { s with holders := holders s.holders })
    (fun _ => rfl) (p := j id) fun s hs hsid => hsid ▸ h.holds s hs
  rwa [Function.update_eq_self] at hupdate

/-- Nothing was ever recorded under the identity of a new series. -/
theorem openSeries (h : c.Sound j) {set : AttributeSet} (hset : (set == set) = true)
    (hnew : c.find? set = none) : (c.openSeries set).2.Sound j where
  toDistinct := h.toDistinct.openSeries hnew
  detached := h.detached
  reflexive n hn := by
    rw [names_openSeries] at hn
    rcases List.mem_append.1 hn with hn | hn
    · exact h.reflexive n hn
    · rw [List.mem_singleton.1 hn]
      exact hset
  holds s hs := by
    rcases List.mem_append.1 hs with hs | hs
    · exact h.holds s hs
    · have hempty : (j c.nextId).waiting = [] :=
        (Passage.of_all_nil (h.unissued c.nextId (Nat.le_refl _))).2.2.1
      rw [List.mem_singleton.1 hs]
      show (Handle.fresh k c.sampling).Holds (j c.nextId).waiting
      rw [hempty]
      exact Handle.holds_fresh k c.sampling
  live id hid := by
    obtain ⟨s, hs, hsid⟩ := h.live id hid
    exact ⟨s, List.mem_append_left _ hs, hsid⟩
  unissued id hid := h.unissued id (Nat.le_of_succ_le hid)

/-- Acquiring keeps a collector sound: a new series waits with nothing. -/
theorem acquire (h : c.Sound j) {set : AttributeSet} (hset : (set == set) = true) :
    (c.acquire set).2.Sound j := by
  obtain ⟨count, ⟨s, hs, heq⟩ | ⟨new, hnew, hfind, heq⟩⟩ := c.acquire_cases set
  · rw [heq]
    exact Sound.updateHolders (c := { c with overflowCount := count }) (h.of_live_eq rfl rfl rfl)
      ⟨s, hs, rfl⟩ (· + 1)
  · rw [heq]
    exact Sound.openSeries (c := { c with overflowCount := count }) (h.of_live_eq rfl rfl rfl)
      (self_beq_of_opened hset hnew) hfind

/-- Moves of recorders are noted in the journal. -/
theorem move (h : c.Sound j) {move : Move T} (hreflexive : move.IsReflexive)
    (hlive : ∀ id ∈ move.series?, ∃ s ∈ c.live, s.id = id) : (c.move move).Sound (j.move move) := by
  cases move with
  | acquire set => exact h.acquire hreflexive
  | fold id r =>
    exact h.updateSeries (hlive id rfl) (f := fun s => { s with handle := s.handle.record r })
      (fun _ => rfl) (p := (j id).add r) fun s hs hsid => hsid ▸ (h.holds s hs).record r
  | drain id point =>
    exact h.updateSeries (hlive id rfl)
      (f := fun s => { s with handle := (s.handle.drain point).2 }) (fun _ => rfl)
      (p := (j id).take) fun s hs _ => (h.holds s hs).drain point
  | release id =>
    have hupdate := h.updateHolders (hlive id rfl) (· - 1)
    refine hupdate.of_live_eq rfl ?_ rfl
    show ((c.updateSeries id _).detached.filter _) = _
    rw [hupdate.detached, List.filter_nil]

/-- What waits in a live series is drained, whatever becomes of what is kept. -/
theorem drain (h : c.Sound j) {s : Series T k} (hs : s ∈ c.live)
    (retained : Table AttributeSet (Retained T k)) :
    ({ c.updateSeries s.id (fun t => { t with handle := s.drained.handle }) with retained } :
        Collector T k).Sound (j.drain s.id) := by
  have hupdate := h.updateSeries ⟨s, hs, rfl⟩ (f := fun t => { t with handle := s.drained.handle })
    (fun _ => rfl) (p := (j s.id).drain) fun t ht htid => (h.holds s hs).drain s.attributes
  exact hupdate.of_live_eq rfl rfl rfl

/-- Live series go away with what waits in them. -/
theorem settle (h : c.Sound j) {c' : Collector T k} (hlive : c'.live.Sublist c.live)
    (hdetached : c'.detached = c.detached) (hnext : c'.nextId = c.nextId) :
    c'.Sound (j.settle c') where
  toDistinct := h.toDistinct.of_sublist (hlive.map _) (Nat.le_of_eq hnext.symm)
  detached := hdetached.trans h.detached
  reflexive n hn := h.reflexive n ((hlive.map Series.name).subset hn)
  -- a series that is left keeps its passage; of one that went away, nothing waits any more
  holds s hs := by
    have hany : c'.live.any (·.id == s.id) = true := List.any_eq_true.2 ⟨s, hs, beq_self_eq_true _⟩
    rw [Journal.settle, if_pos hany]
    exact h.holds s (hlive.subset hs)
  live id hid := by
    by_cases hany : c'.live.any (·.id == id) = true
    · simpa using hany
    · rw [Journal.settle, if_neg hany] at hid
      exact absurd rfl hid
  unissued id hid := by
    rw [hnext] at hid
    have hall := h.unissued id hid
    rw [Journal.settle]
    split
    · exact hall
    · rw [Passage.all_drain, hall]

/-- Where no series went away, there is nothing to settle. -/
theorem settle_eq (h : c.Sound j) : j.settle c = j := by
  funext id
  by_cases hany : c.live.any (·.id == id) = true
  · rw [Journal.settle, if_pos hany]
  · rw [Journal.settle, if_neg hany]
    refine Passage.drain_of_waiting_nil ?_
    by_contra hwaiting
    obtain ⟨s, hs, rfl⟩ := h.live id hwaiting
    exact hany (List.any_eq_true.2 ⟨s, hs, beq_self_eq_true _⟩)

/-- The end of a collection is the end of no series. -/
theorem close (h : c.Sound j) : c.Sound fun id => (j id).close where
  toDistinct := h.toDistinct
  detached := h.detached
  reflexive := h.reflexive
  holds := h.holds
  live := h.live
  unissued id hid := by rw [Passage.all_close, h.unissued id hid]

end Sound

/-! ## Series in hand -/

/-- Live series count the recorders that have them in hand, and no other series are in hand. -/
structure InHands (c : Collector T k) (hands : Nat → Nat) : Prop where
  holders : ∀ s ∈ c.live, s.holders = hands s.id
  live : ∀ id, 0 < hands id → ∃ s ∈ c.live, s.id = id

namespace InHands

variable {c : Collector T k} {hands : Nat → Nat}

omit [Quantity T] in
/-- A change to one live series, with that of its count. -/
theorem updateSeries (h : c.InHands hands) {id n : Nat} (hid : ∃ s ∈ c.live, s.id = id)
    {f : Series T k → Series T k} (hname : ∀ s, (f s).name = s.name)
    (hcount : ∀ s ∈ c.live, s.id = id → (f s).holders = n) :
    (c.updateSeries id f).InHands (Function.update hands id n) := by
  refine ⟨fun s hs => ?_, fun other hother => ?_⟩
  · obtain ⟨t, ht, rfl⟩ := List.mem_map.1 hs
    by_cases htid : t.id = id
    · have hfid : (f t).id = t.id := congrArg Prod.fst (hname t)
      rw [if_pos htid, hfid, htid, Function.update_self]
      exact hcount t ht htid
    · rw [if_neg htid, Function.update_of_ne htid]
      exact h.holders t ht
  · refine exists_live_of_names_eq (c.names_updateSeries id hname) ?_
    by_cases hne : other = id
    · exact hne ▸ hid
    · rw [Function.update_of_ne hne] at hother
      exact h.live other hother

omit [Quantity T] in
/-- A change to one live series that leaves its count alone. -/
theorem updateHandle (h : c.InHands hands) {id : Nat} (hid : ∃ s ∈ c.live, s.id = id)
    (handle : Series T k → Handle T k) :
    (c.updateSeries id fun s => { s with handle := handle s }).InHands hands := by
  have hupdate := h.updateSeries hid (f := fun s => { s with handle := handle s }) (fun _ => rfl)
    fun s hs hsid => hsid ▸ h.holders s hs
  rwa [Function.update_eq_self] at hupdate

/-- A new series is in the one hand that opened it. -/
theorem openSeries (h : c.InHands hands) (hdistinct : c.Distinct) (set : AttributeSet) :
    (c.openSeries set).2.InHands (Function.update hands c.nextId (hands c.nextId + 1)) := by
  have hlt (s : Series T k) (hs : s ∈ c.live) : s.id ≠ c.nextId :=
    Nat.ne_of_lt (hdistinct.lt_nextId s.name (List.mem_map_of_mem hs))
  -- nobody can have had the identity in hand before it was given
  have hnone : hands c.nextId = 0 := by
    by_contra hsome
    obtain ⟨s, hs, hsid⟩ := h.live c.nextId (Nat.pos_of_ne_zero hsome)
    exact hlt s hs hsid
  refine ⟨fun s hs => ?_, fun other hother => ?_⟩
  · rcases List.mem_append.1 hs with hs | hs
    · rw [Function.update_of_ne (hlt s hs)]
      exact h.holders s hs
    · rw [List.mem_singleton.1 hs, Function.update_self, hnone]
  · by_cases hnew : other = c.nextId
    · exact ⟨_, List.mem_append_right _ (List.mem_singleton_self _), hnew.symm⟩
    · rw [Function.update_of_ne hnew] at hother
      obtain ⟨s, hs, hsid⟩ := h.live other hother
      exact ⟨s, List.mem_append_left _ hs, hsid⟩

/-- Recorders that take series in hand and give them out of hand are counted. -/
theorem move (h : c.InHands hands) (hdistinct : c.Distinct) {move : Move T}
    (hhands : ∀ id ∈ move.series?, 0 < hands id) :
    (c.move move).InHands (c.handsAfter hands move) := by
  cases move with
  | acquire set =>
    -- one more hand on the series that was found, or the first one on a new series
    obtain ⟨count, ⟨s, hs, heq⟩ | ⟨new, -, -, heq⟩⟩ := c.acquire_cases set
    · rw [Collector.move, handsAfter, heq]
      exact InHands.updateSeries (c := { c with overflowCount := count }) ⟨h.holders, h.live⟩
        ⟨s, hs, rfl⟩ (fun _ => rfl) fun t ht htid =>
          congrArg (· + 1) ((h.holders t ht).trans (congrArg hands htid))
    · rw [Collector.move, handsAfter, heq]
      exact InHands.openSeries (c := { c with overflowCount := count }) ⟨h.holders, h.live⟩
        ⟨hdistinct.ids, hdistinct.sets, hdistinct.lt_nextId⟩ new
  | fold id r => exact h.updateHandle (h.live id (hhands id rfl)) _
  | drain id point => exact h.updateHandle (h.live id (hhands id rfl)) _
  | release id =>
    have hupdate := h.updateSeries (h.live id (hhands id rfl)) (n := hands id - 1)
      (f := fun s => { s with holders := s.holders - 1 }) (fun _ => rfl)
      fun s hs hsid => congrArg (· - 1) (hsid ▸ h.holders s hs)
    exact ⟨hupdate.holders, hupdate.live⟩

/-- A drain leaves series in the hands that they are in. -/
theorem drainSeries (h : c.InHands hands) (cycle : Cycle T k) (id : Nat) :
    (c.drainSeries cycle id).2.InHands hands := by
  unfold Collector.drainSeries
  split
  · exact h
  · rename_i s hs
    have hid : ∃ s ∈ c.live, s.id = id :=
      ⟨s, List.mem_of_find?_eq_some hs, by simpa using List.find?_some hs⟩
    have hupdate := h.updateHandle hid fun _ => (s.handle.drain s.attributes).2
    dsimp only
    split <;> exact ⟨hupdate.holders, hupdate.live⟩

end InHands

end Collector

end Metering
