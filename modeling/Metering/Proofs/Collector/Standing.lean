import Metering.Proofs.Collector.Limit

/-!
# What a live series stands for

As long as a series is live, its set finds it and no other set does, and so does every set that equals
its own (`StandsFor`). Only the overflow series also stands in for sets that find no room. All this
rests on live series having different sets, so it holds of a collector in any state.
-/

namespace Metering.Collector

variable {T : Type} {k : Kind} [Quantity T]

/-- The series of an identity stands for a set: it is the one under the set, and those who look for the
set get it. Those who look for another set do not get it, unless it is the overflow series and there is
no room for the other set. -/
structure StandsFor (c : Collector T k) (id : Nat) (set : AttributeSet) : Prop where
  stored : (c.find? set).map (·.id) = some id
  /-- Looking for a live series first makes no difference. -/
  found : ∀ other, (other == set) = true →
    (c.acquire other).1 = id ∧ c.acquire? other = some (c.acquire other)
  alone : ∀ other, (other == set) = false → (c.acquire other).1 = id →
    (set == .overflow) = true ∧ ¬ c.Stores other ∧ c.config.limit ≤ c.ordinary.length

/-- A live series stands for every set that equals its own. -/
theorem Distinct.standsFor {c : Collector T k} (h : c.Distinct) {s : Series T k} (hs : s ∈ c.live)
    {set : AttributeSet} (hset : (s.attributes == set) = true) : c.StandsFor s.id set where
  stored := by
    rw [h.find?_of_beq hs hset]
    rfl
  found other hother := by
    have hfind : c.find? other = some s := h.find?_of_beq hs (BEq.trans hset (BEq.symm hother))
    rw [acquire_of_known hfind, acquire?, hfind]
    exact ⟨rfl, rfl⟩
  alone other hother hid := by
    have hold : s.id ≠ c.nextId := Nat.ne_of_lt (h.lt_nextId s.name (List.mem_map_of_mem hs))
    cases hfind : c.find? other with
    | some t =>
      obtain ⟨ht, hlive⟩ := c.mem_of_find? hfind
      rw [acquire_of_known hfind] at hid
      rw [h.id_inj hlive hs hid] at ht
      rw [BEq.trans (BEq.symm ht) hset] at hother
      cases hother
    | none =>
      cases hlimit : c.isAtLimit with
      | false =>
        rw [acquire_of_room hfind hlimit] at hid
        exact absurd hid.symm hold
      | true =>
        cases hover : c.find? .overflow with
        | none =>
          rw [acquire_of_overflows hfind hlimit hover] at hid
          exact absurd hid.symm hold
        | some t =>
          obtain ⟨ht, hlive⟩ := c.mem_of_find? hover
          rw [acquire_of_shared hfind hlimit hover] at hid
          rw [h.id_inj hlive hs hid] at ht
          exact ⟨BEq.trans (BEq.symm hset) ht, c.find?_eq_none_iff.1 hfind,
            h.isAtLimit_iff.1 hlimit⟩

/-- A series that was found under a set goes on to stand for it as long as it is live. -/
theorem Distinct.standsFor_of_precedes {c c' : Collector T k} (h : c.Distinct)
    (hprecedes : c.Precedes c') (h' : c'.Distinct) {set : AttributeSet} {id : Nat}
    (hstored : (c.find? set).map (·.id) = some id) (hlive : ∃ s ∈ c'.live, s.id = id) :
    c'.StandsFor id set := by
  obtain ⟨s, hfind, rfl⟩ := Option.map_eq_some_iff.1 hstored
  obtain ⟨hset, hs⟩ := c.mem_of_find? hfind
  have hname : s.name ∈ c'.names := hprecedes.mem_names h (List.mem_map_of_mem hs) hlive
  obtain ⟨t, ht, hts⟩ := List.mem_map.1 hname
  have hid : t.id = s.id := congrArg Prod.fst hts
  have hattributes : t.attributes = s.attributes := congrArg Prod.snd hts
  exact hid ▸ h'.standsFor ht (hattributes ▸ hset)

end Metering.Collector
