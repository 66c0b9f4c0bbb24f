import Metering.Proofs.Quantity.Extremes
import Metering.Proofs.Tally
import Mathlib.Data.Prod.Lex

/-!
# Merging in any order

Where sums are modular and all values are numbers, merging tallies is commutative and associative,
whatever the kind. So the tallies of the parts that a stretch of recordings falls into, however the
parts are mixed, merge to the tally of the stretch in any order (`Kind.mergedTally?_of_perm`). Only
the latest value needs to know the times, and what it needs is that no two are the same. All other
kinds take in measurements in any order (`Kind.record_comm`).
-/

namespace Metering

open Quantity

variable {T : Type} [Quantity T]

/-! ## Extremes -/

namespace Quantity

/-- Of two numbers the same one is kept in either order, if their ranks tell them apart. -/
theorem keep_comm {rank : T → Int} (hnumber : ∀ v : T, isNaN v = false)
    (hinj : ∀ {v w : T}, rank v = rank w → v = w) (a b : T) :
    keep isNaN rank a b = keep isNaN rank b a := by
  rcases Int.lt_trichotomy (rank a) (rank b) with hlt | heq | hgt
  · rw [keep_of_not_lt (by omega), keep_of_lt (hnumber b) (hnumber a) hlt]
  · rw [hinj heq]
  · rw [keep_of_lt (hnumber a) (hnumber b) hgt, keep_of_not_lt (by omega)]

variable [Ranked T] [Exact T]

/-- Of two exact values the lesser one is kept in either order. -/
theorem lower_comm (a b : T) : lower a b = lower b a := by
  rw [lower_eq_keep]
  exact keep_comm Exact.isNumber Exact.rank_inj a b

/-- The least of three is kept in any grouping. -/
theorem lower_assoc (a b c : T) : lower (lower a b) c = lower a (lower b c) := by
  rw [lower_eq_keep]
  exact keep_assoc (Exact.isNumber a) (Exact.isNumber b) c

/-- Of two exact values the greater one is kept in either order. -/
theorem higher_comm (a b : T) : higher a b = higher b a := by
  rw [higher_eq_keep]
  exact keep_comm Exact.isNumber (fun h => Exact.rank_inj (Int.neg_inj.1 h)) a b

/-- The greatest of three is kept in any grouping. -/
theorem higher_assoc (a b c : T) : higher (higher a b) c = higher a (higher b c) := by
  rw [higher_eq_keep]
  exact keep_assoc (Exact.isNumber a) (Exact.isNumber b) c

end Quantity

/-! ## Tallies -/

variable [Ranked T] [Exact T]

namespace Latest

/-- What latest values are compared by: the time, and at the same time the value. -/
def key (a : Latest T) : Time ×ₗ Int := toLex (a.time, Ranked.rank a.value)

/-- A value supersedes another exactly if its key is not smaller. -/
theorem isSuperseded_iff (a b : Latest T) : a.isSuperseded b = true ↔ a.key ≤ b.key := by
  have hle : numLe a.value b.value = true ↔ Ranked.rank a.value ≤ Ranked.rank b.value := by
    simp [Ranked.numLe_eq, Exact.isNumber]
  rw [key, key, Prod.Lex.toLex_le_toLex, isSuperseded]
  rcases lt_trichotomy a.time b.time with hlt | heq | hgt
  · simp [hlt]
  · simp [heq, hle]
  · simp [hgt, not_lt_of_gt hgt, ne_of_gt hgt]

/-- Exact values with the same key are the same. -/
theorem key_inj {a b : Latest T} (h : a.key = b.key) : a = b := by
  obtain ⟨htime, hrank⟩ := Prod.mk.inj (toLex_inj.1 h)
  obtain ⟨value, time⟩ := a
  obtain ⟨value', time'⟩ := b
  cases htime
  cases Exact.rank_inj hrank
  rfl

/-- The value with the greater key stays, if it comes second. -/
theorem merge_of_le {a b : Latest T} (h : a.key ≤ b.key) : a.merge b = b := by
  rw [merge, if_pos ((isSuperseded_iff a b).2 h)]

/-- The value with the greater key stays if it comes first, too. -/
theorem merge_of_lt {a b : Latest T} (h : b.key < a.key) : a.merge b = a := by
  rw [merge, if_neg fun hab => not_lt_of_ge ((isSuperseded_iff a b).1 hab) h]

/-- Merging keeps the one with the greatest key, in either order. -/
theorem merge_comm (a b : Latest T) : a.merge b = b.merge a := by
  rcases lt_trichotomy a.key b.key with hlt | heq | hgt
  · rw [merge_of_le hlt.le, merge_of_lt hlt]
  · rw [key_inj heq]
  · rw [merge_of_lt hgt, merge_of_le hgt.le]

/-- Merging keeps the one with the greatest key, in any grouping. -/
theorem merge_assoc (a b c : Latest T) : (a.merge b).merge c = a.merge (b.merge c) := by
  -- which of the first two wins, and then whether the winner loses to the third
  rcases le_or_gt a.key b.key with hab | hba
  · rw [merge_of_le hab]
    rcases le_or_gt b.key c.key with hbc | hcb
    · rw [merge_of_le hbc, merge_of_le (hab.trans hbc)]
    · rw [merge_of_lt hcb, merge_of_le hab]
  · rw [merge_of_lt hba]
    rcases le_or_gt b.key c.key with hbc | hcb
    · rw [merge_of_le hbc]
    · rw [merge_of_lt hcb, merge_of_lt hba, merge_of_lt (hcb.trans hba)]

end Latest

variable [Modular T]

namespace Spread

/-- Spreads merge in either order: sums and counts wrap around, and extremes are exact. -/
theorem merge_comm (a b : Spread T) : a.merge b = b.merge a := by
  simp only [merge, UInt64.add_comm a.count, Modular.add_comm a.sum, lower_comm a.min,
    higher_comm a.max]

/-- Spreads merge in any grouping. -/
theorem merge_assoc (a b c : Spread T) : (a.merge b).merge c = a.merge (b.merge c) := by
  simp only [merge, UInt64.add_assoc, Modular.add_assoc, lower_assoc, higher_assoc]

end Spread

namespace Distribution

/-- Distributions merge in either order. -/
theorem merge_comm (a b : Distribution T) : a.merge b = b.merge a := by
  have hbuckets : List.zipWith (· + ·) a.buckets b.buckets =
      List.zipWith (· + ·) b.buckets a.buckets := List.zipWith_comm_of_comm UInt64.add_comm
  rw [merge, merge, hbuckets, Spread.merge_comm]

omit [Quantity T] [Ranked T] [Exact T] [Modular T] in
/-- Counts are added bucket by bucket in any grouping, also if the lists differ in length: the sum
is as long as the shortest of them. -/
theorem zipWith_add_assoc (l m n : List UInt64) :
    List.zipWith (· + ·) (List.zipWith (· + ·) l m) n =
      List.zipWith (· + ·) l (List.zipWith (· + ·) m n) := by
  induction l generalizing m n with
  | nil => rfl
  | cons a l ih =>
    cases m with
    | nil => rfl
    | cons b m =>
      cases n with
      | nil => rfl
      | cons c n => simp [ih, UInt64.add_assoc]

/-- Distributions merge in any grouping. -/
theorem merge_assoc (a b c : Distribution T) : (a.merge b).merge c = a.merge (b.merge c) := by
  simp only [merge, Spread.merge_assoc, zipWith_add_assoc]

end Distribution

namespace Kind

/-- Tallies can be merged in either order. -/
theorem merge_comm (k : Kind) (a b : k.Tally T) : k.merge a b = k.merge b a := by
  cases k with
  | sum monotonic => exact congrArg Total.mk (Modular.add_comm a.value b.value)
  | lastValue => exact Latest.merge_comm a b
  | minMaxSumCount => exact Spread.merge_comm a b
  | histogram boundaries recordsExtremes => exact Distribution.merge_comm a b

/-- Tallies can be merged in any grouping. -/
theorem merge_assoc (k : Kind) (a b c : k.Tally T) :
    k.merge (k.merge a b) c = k.merge a (k.merge b c) := by
  cases k with
  | sum monotonic => exact congrArg Total.mk (Modular.add_assoc a.value b.value c.value)
  | lastValue => exact Latest.merge_assoc a b c
  | minMaxSumCount => exact Spread.merge_assoc a b c
  | histogram boundaries recordsExtremes => exact Distribution.merge_assoc a b c

instance (k : Kind) : Std.Commutative (k.merge (T := T)) := ⟨k.merge_comm⟩

instance (k : Kind) : Std.Associative (k.merge (T := T)) := ⟨k.merge_assoc⟩

/-! ## Recordings in any order -/

/-- Two measurements can be taken in in either order, but for the latest value. -/
theorem record_comm {k : Kind} (hk : k ≠ .lastValue) (t : k.Tally T) (v w : T)
    (time time' : Time) :
    k.record (k.record t v time) w time' = k.record (k.record t w time') v time := by
  have hspread (s : Spread T) : (s.record v).record w = (s.record w).record v := by
    simp only [Spread.record, Modular.add_assoc, Modular.add_comm v, lower_assoc, lower_comm v,
      higher_assoc, higher_comm v]
  cases k with
  | sum monotonic =>
    show Total.mk (add (add t.value v) w) = ⟨add (add t.value w) v⟩
    rw [Modular.add_assoc, Modular.add_comm v, Modular.add_assoc]
  | lastValue => exact absurd rfl hk
  | minMaxSumCount => exact hspread t
  | histogram boundaries recordsExtremes =>
    show (Distribution.record boundaries t v).record boundaries w =
      (Distribution.record boundaries t w).record boundaries v
    simp only [Distribution.record, hspread]
    by_cases hbucket : bucketOf boundaries.values (toBinary64 v) =
        bucketOf boundaries.values (toBinary64 w)
    · rw [hbucket]
    -- the two measurements fall into different buckets, which are counted apart
    · rw [List.modify_modify_ne _ _ _ hbucket]

omit [Ranked T] [Exact T] [Modular T] in
/-- Only the latest value has to do with the time. -/
theorem record_eq_of_ne {k : Kind} (hk : k ≠ .lastValue) (t : k.Tally T) (v : T)
    (time time' : Time) : k.record t v time = k.record t v time' := by
  cases k with
  | lastValue => exact absurd rfl hk
  | sum monotonic => rfl
  | minMaxSumCount => rfl
  | histogram boundaries recordsExtremes => rfl

/-! ## Parts of a stretch -/

/-- Merge tallies, of which some may be missing. -/
def mergeAll (k : Kind) (ts : List (Option (k.Tally T))) : Option (k.Tally T) :=
  ts.foldl (Option.merge k.merge) none

omit [Ranked T] [Exact T] [Modular T] in
/-- The merged tally of the cycles of a stretch merges the tallies of its cycles. -/
theorem mergedTally?_eq_mergeAll (k : Kind) (cs : List (List (Recording T))) :
    k.mergedTally? cs = k.mergeAll (cs.map k.tally?) :=
  List.foldl_map.symm

/-- Tallies that merge in either order and any grouping can be merged in any order at all. -/
theorem mergeAll_of_perm (k : Kind) {ts us : List (Option (k.Tally T))} (h : ts.Perm us) :
    k.mergeAll ts = k.mergeAll us :=
  h.foldl_op_eq

omit [Ranked T] [Exact T] [Modular T] in
/-- Missing tallies do not count. -/
theorem mergeAll_filterMap {α : Type} (k : Kind) (f : α → Option (k.Tally T)) (l : List α) :
    k.mergeAll ((l.filterMap f).map some) = k.mergeAll (l.map f) := by
  induction l using List.reverseRecOn with
  | nil => rfl
  | append_singleton l a ih =>
    rw [mergeAll, mergeAll, List.filterMap_append, List.map_append, List.map_append,
      List.foldl_append, List.foldl_append, ← mergeAll, ← mergeAll, ih]
    cases hfa : f a <;> simp [hfa]

omit [Exact T] in
/-- The tally of a stretch merges those of its single recordings. -/
theorem tally?_eq_mergeAll (k : Kind) {rs : List (Recording T)}
    (htimes : rs.Pairwise (·.time < ·.time)) :
    k.tally? rs = k.mergeAll (rs.map fun r => k.tally? [r]) := by
  induction rs using List.reverseRecOn with
  | nil => rfl
  | append_singleton rs r ih =>
    have hinit := ih (List.pairwise_append.1 htimes).1
    rw [mergeAll, List.map_append, List.foldl_append, ← mergeAll, ← hinit]
    show k.tally? (rs ++ [r]) = Option.merge k.merge (k.tally? rs) (k.tally? [r])
    -- the first recording makes the tally, every later one is merged into it
    by_cases hrs : rs = []
    · rw [hrs]
      exact Option.merge_none_left.symm
    · have hmerge := k.merge_tallyOf_of_modular hrs (List.cons_ne_nil r []) fun _ => htimes
      simp [tally?, hrs, hmerge]

/-- Merging in groups is merging all at once. -/
theorem mergeAll_map_mergeAll (k : Kind) (groups : List (List (Option (k.Tally T)))) :
    k.mergeAll (groups.map k.mergeAll) = k.mergeAll groups.flatten := by
  induction groups using List.reverseRecOn with
  | nil => rfl
  | append_singleton groups last ih =>
    have hlast : last.foldl (Option.merge k.merge) (k.mergeAll groups.flatten) =
        Option.merge k.merge (k.mergeAll groups.flatten) (k.mergeAll last) := by
      -- merging `last` into what the groups before it come to, instead of starting from nothing
      have hassoc : last.foldl (Option.merge k.merge)
          (Option.merge k.merge (k.mergeAll groups.flatten) none) =
            Option.merge k.merge (k.mergeAll groups.flatten) (k.mergeAll last) := List.foldl_assoc
      rwa [Option.merge_none_right] at hassoc
    have hflatten : k.mergeAll (groups.flatten ++ last) =
        last.foldl (Option.merge k.merge) (k.mergeAll groups.flatten) := List.foldl_append
    rw [List.flatten_concat, hflatten, hlast, mergeAll, List.map_append, List.foldl_append,
      ← mergeAll, ih]
    rfl

/-- **The parts of a stretch.** If the recordings of a stretch are parted, the tallies of the parts
merge to that of the stretch, in any order. -/
theorem mergedTally?_of_perm (k : Kind) {cs : List (List (Recording T))} {rs : List (Recording T)}
    (hparts : cs.flatten.Perm rs) (hcs : ∀ c ∈ cs, c.Pairwise (·.time < ·.time))
    (htimes : rs.Pairwise (·.time < ·.time)) : k.mergedTally? cs = k.tally? rs := by
  have hsingles : cs.map k.tally? = (cs.map (·.map fun r => k.tally? [r])).map k.mergeAll := by
    rw [List.map_map]
    exact List.map_congr_left fun c hc => k.tally?_eq_mergeAll (hcs c hc)
  rw [mergedTally?_eq_mergeAll, hsingles, mergeAll_map_mergeAll, k.tally?_eq_mergeAll htimes,
    ← List.map_flatten]
  exact k.mergeAll_of_perm (hparts.map _)

end Kind

omit [Ranked T] [Exact T] [Modular T] in
/-- Joining accumulations merges their tallies. -/
theorem Accumulation.tally_joinAll {k : Kind} (as : List (Accumulation T k)) :
    (joinAll as).map (·.tally) = k.mergeAll (as.map fun a => some a.tally) := by
  induction as using List.reverseRecOn with
  | nil => rfl
  | append_singleton as a ih =>
    rw [joinAll_concat, Option.map_some, tally_join, ih, Kind.mergeAll, Kind.mergeAll,
      List.map_append, List.foldl_append]
    rfl

/-! ## Accumulations -/

namespace Accumulation

/-- The numbers of merged accumulations depend neither on the order of the merges nor on their
grouping. Exemplars are left aside, since those of the last accumulation stay. -/
structure MergesFreely (T : Type) [Quantity T] (k : Kind) : Prop where
  comm (a b : Accumulation T k) : (a.merge b).tally = (b.merge a).tally
  assoc (a b c : Accumulation T k) : ((a.merge b).merge c).tally = (a.merge (b.merge c)).tally
  joinAll_of_perm {as bs : List (Accumulation T k)} :
    as.Perm bs → (joinAll as).map (·.tally) = (joinAll bs).map (·.tally)

/-- All of this follows from the laws of merging tallies. -/
theorem mergesFreely (k : Kind) : MergesFreely T k where
  comm a b := k.merge_comm a.tally b.tally
  assoc a b c := k.merge_assoc a.tally b.tally c.tally
  joinAll_of_perm h := by
    rw [tally_joinAll, tally_joinAll]
    exact k.mergeAll_of_perm (h.map fun a => some a.tally)

/-- **Words merge in any order.** Accumulations of signed words and of unsigned words, of any kind,
merge to the same numbers in any order and any grouping: whatever their sums, counts, extremes and
times are, and however many buckets each of them has. -/
theorem words_merge_in_any_order (k : Kind) : MergesFreely Int64 k ∧ MergesFreely UInt64 k :=
  ⟨mergesFreely k, mergesFreely k⟩

end Accumulation

end Metering
