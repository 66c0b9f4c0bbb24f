import Metering.Proofs.Reservoir
import Mathlib.Data.List.Induction
import Mathlib.Data.List.Nodup
import Mathlib.Data.Option.Basic

/-!
# Samples of fixed size

Whatever slots are drawn, a sample keeps as many recordings as it has room for or was offered, and each
of them is a different one of those offered since it was last emptied. The proof names them by their
positions among these offers (`FixedReservoir.Keeps`): while there is room the positions are the first
ones, and from then on the newest takes the place of one of them, or of none. -/

namespace Metering

variable {T : Type}

namespace FixedReservoir

/-! ## Offers and collections -/

/-- One use of a sample. A collection turns what is kept into exemplars beside a point. -/
inductive Use (T : Type) where
  | offer (r : Recording T)
  | collect (point : AttributeSet)

/-- The sample after a use. -/
def use (f : FixedReservoir T) : Use T → FixedReservoir T
  | .offer r => f.offer r
  | .collect _ => f.drain.2

/-- The sample after uses, one after another. -/
def useAll (f : FixedReservoir T) (uses : List (Use T)) : FixedReservoir T := uses.foldl use f

/-- The recordings that were offered after the last collection. -/
def sinceCollect (uses : List (Use T)) : List (Recording T) :=
  uses.foldl (fun rs => fun | .offer r => rs ++ [r] | .collect _ => []) []

/-- Every offer is counted. -/
theorem seen_offer (f : FixedReservoir T) (r : Recording T) : (f.offer r).seen = f.seen + 1 := by
  unfold offer
  dsimp only
  split
  · rfl
  · split <;> rfl

/-- A recording that finds room is kept behind the others. -/
theorem kept_offer_of_room {f : FixedReservoir T} (hroom : f.kept.length < f.capacity)
    (r : Recording T) : (f.offer r).kept = f.kept ++ [r] := by
  rw [offer, if_pos hroom]

/-- A full sample stays as it is if no slot can be drawn. -/
theorem kept_offer_of_none {f : FixedReservoir T} (hfull : f.capacity ≤ f.kept.length)
    {r : Recording T} (hslot : slot? (f.seen + 1) r.draw = none) : (f.offer r).kept = f.kept := by
  rw [offer, if_neg (Nat.not_lt.2 hfull), hslot]

/-- A recording that draws a slot takes it. -/
theorem kept_offer_of_slot {f : FixedReservoir T} (hfull : f.capacity ≤ f.kept.length)
    {r : Recording T} {slot : Nat} (hslot : slot? (f.seen + 1) r.draw = some slot) :
    (f.offer r).kept = f.kept.set slot r := by
  rw [offer, if_neg (Nat.not_lt.2 hfull), hslot]

/-- As long as the counter has not started over, there is a slot to be drawn. -/
theorem slot?_ofNat {n : Nat} (hpos : 0 < n) (hn : n < 2 ^ 64) (draw : Nat) :
    slot? (.ofNat n) draw = some (draw % n) := by
  have hcount : (UInt64.ofNat n).toNat = n := UInt64.toNat_ofNat_of_lt' hn
  have hseen : UInt64.ofNat n ≠ 0 := by
    intro hzero
    rw [hzero] at hcount
    exact absurd hcount (Nat.ne_of_lt hpos)
  rw [slot?, if_neg hseen, hcount]

/-! ## Positions among the offers -/

/-- The sample keeps the offers at these positions, slot by slot, and has counted the offers. -/
structure Keeps (f : FixedReservoir T) (offers : List (Recording T)) (positions : List Nat) :
    Prop where
  seen : f.seen = .ofNat offers.length
  kept : positions.map (offers[·]?) = f.kept.map some
  nodup : positions.Nodup
  length : positions.length = min offers.length f.capacity
  first : offers.length ≤ f.capacity → positions = List.range offers.length

/-- An empty sample keeps none of no offers. -/
theorem keeps_empty (capacity : Nat) : Keeps { capacity : FixedReservoir T } [] [] where
  seen := rfl
  kept := rfl
  nodup := List.nodup_nil
  length := (Nat.zero_min capacity).symm
  first := fun _ => rfl

namespace Keeps

variable {f : FixedReservoir T} {offers : List (Recording T)} {positions : List Nat}

/-- A sample has a recording for each of the positions. -/
theorem length_kept (h : f.Keeps offers positions) : f.kept.length = min offers.length f.capacity := by
  have hlength := congrArg List.length h.kept
  rw [List.length_map, List.length_map] at hlength
  rw [← hlength, h.length]

/-- A full sample was offered as many recordings as it has room for, or more. -/
theorem capacity_le (h : f.Keeps offers positions) (hfull : f.capacity ≤ f.kept.length) :
    f.capacity ≤ offers.length :=
  Nat.le_trans hfull (h.length_kept ▸ Nat.min_le_left _ _)

/-- The positions are positions of offers. -/
theorem lt (h : f.Keeps offers positions) {p : Nat} (hp : p ∈ positions) : p < offers.length := by
  have hsome : offers[p]? ∈ f.kept.map some := h.kept ▸ List.mem_map_of_mem hp
  obtain ⟨r, -, hr⟩ := List.mem_map.1 hsome
  exact (List.getElem?_eq_some_iff.1 hr.symm).1

/-- The counter after one more offer. -/
theorem seen_offer (h : f.Keeps offers positions) (r : Recording T) :
    (f.offer r).seen = .ofNat (offers ++ [r]).length := by
  rw [FixedReservoir.seen_offer, h.seen, List.length_append, List.length_singleton,
    UInt64.ofNat_add]
  rfl

/-- A later offer takes no position of an earlier one. -/
theorem map_append (h : f.Keeps offers positions) (r : Recording T) :
    positions.map ((offers ++ [r])[·]?) = f.kept.map some := by
  rw [← h.kept]
  exact List.map_congr_left fun p hp => List.getElem?_append_left (h.lt hp)

/-- A sample with room for it keeps the newest offer after those before it. -/
theorem offer_of_room (h : f.Keeps offers positions) (hroom : f.kept.length < f.capacity)
    (r : Recording T) : (f.offer r).Keeps (offers ++ [r]) (positions ++ [offers.length]) := by
  have hlt : offers.length < f.capacity := by
    have := h.length_kept
    omega
  have hfirst := h.first (Nat.le_of_lt hlt)
  have hlength : (offers ++ [r]).length = offers.length + 1 := List.length_append
  refine ⟨h.seen_offer r, ?_, ?_, ?_, fun _ => ?_⟩
  · rw [kept_offer_of_room hroom, List.map_append, List.map_append, h.map_append r]
    simp
  · rw [hfirst, ← List.range_succ]
    exact List.nodup_range
  · rw [capacity_offer, List.length_append, h.length, hlength, List.length_singleton]
    omega
  · rw [hfirst, hlength, List.range_succ]

/-- In a full sample the newest offer takes the slot that is drawn, if there is such a slot. -/
theorem offer_of_slot (h : f.Keeps offers positions) (hfull : f.capacity ≤ f.kept.length)
    {r : Recording T} {slot : Nat} (hslot : slot? (f.seen + 1) r.draw = some slot) :
    (f.offer r).Keeps (offers ++ [r]) (positions.set slot offers.length) := by
  have hle : f.capacity ≤ offers.length := h.capacity_le hfull
  -- the newest position is behind those of all earlier offers
  have hnew : offers.length ∉ positions := fun hmem => Nat.lt_irrefl _ (h.lt hmem)
  have hlength : (offers ++ [r]).length = offers.length + 1 := List.length_append
  refine ⟨h.seen_offer r, ?_, h.nodup.set hnew, ?_, fun hroom => ?_⟩
  · rw [kept_offer_of_slot hfull hslot, List.map_set, List.map_set, h.map_append r]
    simp
  · rw [capacity_offer, List.length_set, h.length, hlength]
    omega
  · rw [capacity_offer, hlength] at hroom
    omega

/-- A full sample without a slot to be drawn keeps the offers that it kept. -/
theorem offer_of_none (h : f.Keeps offers positions) (hfull : f.capacity ≤ f.kept.length)
    {r : Recording T} (hslot : slot? (f.seen + 1) r.draw = none) :
    (f.offer r).Keeps (offers ++ [r]) positions := by
  have hle : f.capacity ≤ offers.length := h.capacity_le hfull
  have hlength : (offers ++ [r]).length = offers.length + 1 := List.length_append
  refine ⟨h.seen_offer r, ?_, h.nodup, ?_, fun hroom => ?_⟩
  · rw [kept_offer_of_none hfull hslot, h.map_append r]
  · rw [capacity_offer, h.length, hlength]
    omega
  · rw [capacity_offer, hlength] at hroom
    omega

/-- Whatever is drawn, one more offer leaves a sample of the offers with that one among them. -/
theorem offer (h : f.Keeps offers positions) (r : Recording T) :
    ∃ positions', (f.offer r).Keeps (offers ++ [r]) positions' := by
  rcases Nat.lt_or_ge f.kept.length f.capacity with hroom | hfull
  · exact ⟨_, h.offer_of_room hroom r⟩
  · cases hslot : slot? (f.seen + 1) r.draw with
    | none => exact ⟨_, h.offer_of_none hfull hslot⟩
    | some slot => exact ⟨_, h.offer_of_slot hfull hslot⟩

end Keeps

/-- After any uses a sample has the size it was made with, and keeps some of the offers since the last
collection. -/
theorem exists_keeps_useAll (capacity : Nat) (uses : List (Use T)) :
    (useAll { capacity } uses).capacity = capacity ∧
      ∃ positions, (useAll { capacity } uses).Keeps (sinceCollect uses) positions := by
  induction uses using List.reverseRecOn with
  | nil => exact ⟨rfl, [], keeps_empty capacity⟩
  | append_singleton uses last ih =>
    obtain ⟨hcapacity, positions, hkeeps⟩ := ih
    rw [useAll, List.foldl_concat, sinceCollect, List.foldl_concat]
    change (use (useAll { capacity } uses) last).capacity = capacity ∧ _
    cases last with
    | offer r => exact ⟨(capacity_offer _ r).trans hcapacity, hkeeps.offer r⟩
    | collect point =>
      refine ⟨hcapacity, [], ?_⟩
      change Keeps { capacity := (useAll { capacity } uses).capacity } [] []
      exact keeps_empty _

/-- **A sample of fixed size.** Take an empty sample of any size, none included, any offers to it and
collections from it, whatever slots are drawn for the offers, and a collection after them. It yields as
many exemplars as were offered since the collection before it, or as many as the sample has room for if
these are fewer. They are exemplars of offers at different positions among these, and of all of them in
their order if there was room. It leaves the sample as new. Offers are counted in a word: for any of the
first `2 ^ 64 - 1` since the collection there is a slot to be drawn, among as many as were offered with
it, and any of these may be drawn. -/
theorem collects_a_sample (capacity : Nat) (uses : List (Use T)) (point : AttributeSet) :
    let f : FixedReservoir T := useAll { capacity } uses
    let offers := sinceCollect uses
    let exemplars := ((Reservoir.fixed f).drain point).1
    exemplars.length = min offers.length capacity ∧
      (∃ positions : List Nat, positions.Nodup ∧
        positions.map (fun p => offers[p]?.map (·.exemplar point)) = exemplars.map some) ∧
      (offers.length ≤ capacity → exemplars = offers.map (·.exemplar point)) ∧
      ((Reservoir.fixed f).drain point).2 = .fixed { capacity } ∧
      (offers.length < 2 ^ 64 - 1 →
        ∀ r, (f.offer r).seen.toNat = offers.length + 1 ∧
          (∃ slot < offers.length + 1, slot? (f.offer r).seen r.draw = some slot) ∧
          ∀ slot < offers.length + 1, slot? (f.offer r).seen slot = some slot) := by
  intro f offers exemplars
  obtain ⟨hcapacity, positions, hkeeps⟩ := exists_keeps_useAll capacity uses
  have hexemplars : exemplars = f.kept.map (·.exemplar point) := rfl
  have hmap : positions.map (fun p => offers[p]?.map (·.exemplar point)) = exemplars.map some := by
    have hkept := congrArg (List.map (Option.map (·.exemplar point))) hkeeps.kept
    rw [List.map_map, List.map_map] at hkept
    rw [hexemplars, List.map_map]
    exact hkept
  refine ⟨?_, ⟨positions, hkeeps.nodup, hmap⟩, fun hroom => ?_, ?_, fun hcount r => ?_⟩
  · rw [hexemplars, List.length_map, hkeeps.length_kept, hcapacity]
  · -- the positions are all there are, so the recordings are all that were offered
    have hfirst := hkeeps.first (Nat.le_trans hroom (Nat.le_of_eq hcapacity.symm))
    have hall : f.kept.map some = offers.map some := by
      rw [← hkeeps.kept, hfirst]
      refine List.ext_getElem? fun i => ?_
      by_cases hi : i < offers.length <;> simp [hi, offers]
    rw [hexemplars, List.map_injective_iff.2 (Option.some_injective _) hall]
  · exact congrArg (fun capacity => Reservoir.fixed { capacity }) hcapacity
  · have hlength : (offers ++ [r]).length = offers.length + 1 := List.length_append
    have hn : offers.length + 1 < 2 ^ 64 := by omega
    have hslot := slot?_ofNat (Nat.succ_pos offers.length) hn
    have hseen : (f.offer r).seen = .ofNat (offers.length + 1) := hlength ▸ hkeeps.seen_offer r
    rw [hseen]
    refine ⟨UInt64.toNat_ofNat_of_lt' hn, ⟨_, Nat.mod_lt _ (Nat.succ_pos _), hslot r.draw⟩, ?_⟩
    intro slot hlt
    rw [hslot slot, Nat.mod_eq_of_lt hlt]

/-- One offer and a collection, and then four offers. With two slots, the third of the four takes the
second one and the last draws none. -/
def offersAfterCollect : List (Use Int64) :=
  [.offer { value := 1 }, .collect default, .offer { value := 2 }, .offer { value := 3 },
    .offer { value := 4, draw := 1 }, .offer { value := 5, draw := 2 }]

/-- With two slots, the first is kept and the third offer in the place of the second; with four, all
are. -/
theorem collects_a_sample_of_two_and_of_four :
    let ofTwo : FixedReservoir Int64 := useAll { capacity := 2 } offersAfterCollect
    let ofFour : FixedReservoir Int64 := useAll { capacity := 4 } offersAfterCollect
    ((Reservoir.fixed ofTwo).drain default).1.map (·.value) = [2, 4] ∧
      ((Reservoir.fixed ofTwo).drain default).1.length = min 4 2 ∧
      ((Reservoir.fixed ofFour).drain default).1 =
        (sinceCollect offersAfterCollect).map (·.exemplar default) ∧
      (sinceCollect offersAfterCollect).length < 2 ^ 64 - 1 ∧
      slot? (ofTwo.offer { value := 6 }).seen 4 = some 4 := by
  intro ofTwo ofFour
  have hcount : (sinceCollect offersAfterCollect).length < 2 ^ 64 - 1 := by decide
  obtain ⟨hlength, -, -, -, hnext⟩ := collects_a_sample 2 offersAfterCollect default
  obtain ⟨-, -, hall, -, -⟩ := collects_a_sample 4 offersAfterCollect default
  exact ⟨by decide, hlength, hall (by decide), hcount,
    (hnext hcount { value := 6 }).2.2 4 (by decide)⟩

end FixedReservoir

end Metering
