import Metering.Kind
import Metering.Proofs.Quantity
import Mathlib.Data.List.Induction

/-!
# Tallies of split stretches

Merging the tally of a stretch of recordings with the tally of the next stretch gives the tally of
both together, whatever the kind. Only the sum of floating-point numbers depends on the split, so
each statement says separately what becomes of the sum.
-/

namespace Metering

open Quantity

variable {T : Type} [Quantity T]

/-! ## Recording a stretch -/

/-- The sum of recordings, taken in their order. -/
def total (rs : List (Recording T)) : T := rs.foldl (fun a r => add a r.value) zero

/-- The sum of stretches, each summed on its own first. -/
def totalByCycle : List (List (Recording T)) → T
  | [] => zero
  | rs :: rest => rest.foldl (fun a rs => add a (total rs)) (total rs)

namespace Kind

/-- Take in recordings one after another. -/
def recordAll (k : Kind) (t : k.Tally T) (rs : List (Recording T)) : k.Tally T :=
  rs.foldl (fun t r => k.record t r.value r.time) t

/-- The tally of recordings, taken in one after another. -/
def tallyOf (k : Kind) (rs : List (Recording T)) : k.Tally T := k.recordAll k.fresh rs

/-- A tally with another sum, if its kind has one. -/
def withSum : (k : Kind) → k.Tally T → T → k.Tally T
  | .sum _, _, v => ⟨v⟩
  | .lastValue, t, _ => t
  | .minMaxSumCount, t, v => { t with sum := v }
  | .histogram _ _, t, v => { t with sum := v }

/-- Recordings that follow others are taken in by the tally of these. -/
theorem tallyOf_append (k : Kind) (rs rs' : List (Recording T)) :
    k.tallyOf (rs ++ rs') = k.recordAll (k.tallyOf rs) rs' :=
  List.foldl_append

end Kind

/-! ## Spreads -/

namespace Spread

/-- Each part of a spread takes in the values on its own. -/
theorem foldl_record (s : Spread T) (rs : List (Recording T)) :
    rs.foldl (fun s r => s.record r.value) s =
      ⟨s.count + UInt64.ofNat rs.length, rs.foldl (fun a r => add a r.value) s.sum,
        (rs.map (·.value)).foldl lower s.min, (rs.map (·.value)).foldl higher s.max⟩ := by
  induction rs generalizing s with
  | nil => simp
  | cons r rest ih =>
    have hcount : s.count + 1 + UInt64.ofNat rest.length =
        s.count + UInt64.ofNat (rest.length + 1) := by
      rw [UInt64.ofNat_add, UInt64.add_assoc, UInt64.add_comm 1]
      rfl
    rw [List.foldl_cons, ih, List.map_cons, List.foldl_cons, List.foldl_cons, List.foldl_cons,
      List.length_cons, ← hcount]
    rfl

/-- Merging with a stretch is recording it, but for the sum, which is joined from the two sums. -/
theorem merge_foldl_record [Ranked T] (rs rs' : List (Recording T)) (v : T) :
    merge { rs.foldl (fun s r => s.record r.value) fresh with sum := v }
        (rs'.foldl (fun s r => s.record r.value) fresh) =
      { rs'.foldl (fun s r => s.record r.value) (rs.foldl (fun s r => s.record r.value) fresh) with
        sum := add v (total rs') } := by
  -- no number is beyond the extremes of a fresh spread, so folding from them is joining
  have hmin := isNaN_foldl_lower Ranked.isNaN_greatest (rs.map (·.value))
  have hmax := isNaN_foldl_higher Ranked.isNaN_least (rs.map (·.value))
  rw [foldl_record _ rs, foldl_record _ rs', foldl_record _ rs']
  simp only [merge, fresh, total, foldl_lower hmin (rs'.map _), foldl_higher hmax (rs'.map _),
    UInt64.zero_add]

end Spread

/-! ## Histograms -/

namespace Distribution

/-- Count values into their buckets. -/
def countAll (boundaries : Boundaries) (buckets : List UInt64) (rs : List (Recording T)) :
    List UInt64 :=
  rs.foldl (fun b r => b.modify (bucketOf boundaries.values (toBinary64 r.value)) (· + 1)) buckets

/-- Counting does not change how many buckets there are. -/
theorem length_countAll (boundaries : Boundaries) (buckets : List UInt64)
    (rs : List (Recording T)) : (countAll boundaries buckets rs).length = buckets.length := by
  induction rs generalizing buckets with
  | nil => rfl
  | cons r rest ih => exact (ih _).trans (List.length_modify ..)

/-- The spread and the buckets take in the values on their own. -/
theorem foldl_record (boundaries : Boundaries) (d : Distribution T) (rs : List (Recording T)) :
    rs.foldl (fun d r => d.record boundaries r.value) d =
      ⟨rs.foldl (fun s r => s.record r.value) d.toSpread, countAll boundaries d.buckets rs⟩ := by
  induction rs generalizing d with
  | nil => rfl
  | cons r rest ih => exact ih _

/-- Counting one more value commutes with adding other buckets. -/
theorem zipWith_modify (p c : List UInt64) (i : Nat) :
    List.zipWith (· + ·) p (c.modify i (· + 1)) = (List.zipWith (· + ·) p c).modify i (· + 1) := by
  induction p generalizing c i with
  | nil => simp
  | cons a p ih =>
    cases c with
    | nil => simp
    | cons b c =>
      cases i with
      | zero => simp [UInt64.add_assoc]
      | succ i => simp [ih]

/-- Empty buckets add nothing. -/
theorem zipWith_add_zeros (p : List UInt64) :
    List.zipWith (· + ·) p (List.replicate p.length 0) = p := by
  induction p with
  | nil => rfl
  | cons a p ih => simp [List.replicate_succ, ih]

/-- Adding the buckets of a stretch is counting it. -/
theorem zipWith_countAll (boundaries : Boundaries) (p : List UInt64) (rs : List (Recording T)) :
    List.zipWith (· + ·) p (countAll boundaries (List.replicate p.length 0) rs) =
      countAll boundaries p rs := by
  -- for any counts so far, since each recording changes them
  have hcount : ∀ c, List.zipWith (· + ·) p (countAll boundaries c rs) =
      countAll boundaries (List.zipWith (· + ·) p c) rs := by
    induction rs with
    | nil => exact fun _ => rfl
    | cons r rest ih =>
      intro c
      refine (ih (c.modify _ _)).trans ?_
      rw [zipWith_modify]
      rfl
  rw [hcount, zipWith_add_zeros]

end Distribution

/-! ## All kinds -/

namespace Total

/-- The value of a sum takes in the values as they come. -/
theorem foldl_record (t : Total T) (rs : List (Recording T)) :
    rs.foldl (fun t r => t.record r.value) t = ⟨rs.foldl (fun a r => add a r.value) t.value⟩ := by
  induction rs generalizing t with
  | nil => rfl
  | cons r rest ih => exact ih _

end Total

namespace Latest

omit [Quantity T] in
/-- Of a stretch only the last recording is left. -/
theorem foldl_record (t : Latest T) {rs : List (Recording T)} (h : rs ≠ []) :
    rs.foldl (fun t r => t.record r.value r.time) t =
      ⟨(rs.getLast h).value, (rs.getLast h).time⟩ := by
  induction rs generalizing t with
  | nil => exact absurd rfl h
  | cons r rest ih =>
    cases rest with
    | nil => rfl
    | cons r' rest' => exact ih _ (List.cons_ne_nil r' rest')

/-- A later value takes the place of an earlier one. -/
theorem merge_of_later {previous current : Latest T} (h : previous.time < current.time) :
    previous.merge current = current := by
  simp [merge, isSuperseded, h]

end Latest

namespace Kind

variable [Ranked T]

/-- Merging with a later stretch is recording it, but for the sum. For latest values to be so, the
stretch must be later than what was recorded. -/
theorem merge_tallyOf (k : Kind) {rs rs' : List (Recording T)} (v : T) (hrs : rs ≠ [])
    (hrs' : rs' ≠ []) (htimes : k = .lastValue → (rs ++ rs').Pairwise (·.time < ·.time)) :
    k.merge (k.withSum (k.tallyOf rs) v) (k.tallyOf rs') =
      k.withSum (k.tallyOf (rs ++ rs')) (add v (total rs')) := by
  rw [tallyOf_append]
  cases k with
  | sum monotonic =>
    show Total.merge ⟨v⟩ (rs'.foldl (fun (t : Total T) r => t.record r.value) Total.fresh) = _
    rw [Total.foldl_record]
    rfl
  | lastValue =>
    show Latest.merge (rs.foldl (fun t r => t.record r.value r.time) Latest.fresh)
        (rs'.foldl (fun t r => t.record r.value r.time) Latest.fresh) =
      rs'.foldl (fun t r => t.record r.value r.time)
        (rs.foldl (fun t r => t.record r.value r.time) Latest.fresh)
    rw [Latest.foldl_record _ hrs, Latest.foldl_record _ hrs', Latest.foldl_record _ hrs']
    -- only the last recordings of the two stretches are left to compare
    exact Latest.merge_of_later
      ((List.pairwise_append.1 (htimes rfl)).2.2 _ (List.getLast_mem hrs) _ (List.getLast_mem hrs'))
  | minMaxSumCount => exact Spread.merge_foldl_record rs rs' v
  | histogram boundaries recordsExtremes =>
    show Distribution.merge
        { rs.foldl (fun d r => d.record boundaries r.value) (Distribution.fresh boundaries) with
          sum := v }
        (rs'.foldl (fun d r => d.record boundaries r.value) (Distribution.fresh boundaries)) =
      { rs'.foldl (fun d r => d.record boundaries r.value)
          (rs.foldl (fun d r => d.record boundaries r.value) (Distribution.fresh boundaries)) with
        sum := add v (total rs') }
    -- there are as many buckets on either side, so that adding them leaves none out
    have hlength : boundaries.values.length + 1 = (Distribution.countAll boundaries
        (Distribution.fresh (T := T) boundaries).buckets rs).length := by
      rw [Distribution.length_countAll]
      exact List.length_replicate.symm
    rw [Distribution.foldl_record _ _ rs, Distribution.foldl_record _ _ rs',
      Distribution.foldl_record _ _ rs']
    refine congrArg₂ Distribution.mk (Spread.merge_foldl_record rs rs' v) ?_
    show List.zipWith _ _ (Distribution.countAll boundaries (List.replicate _ 0) rs') = _
    rw [hlength]
    exact Distribution.zipWith_countAll boundaries _ rs'

omit [Ranked T] in
/-- The sum in a tally is that of the recordings, in their order. -/
theorem withSum_total (k : Kind) (rs : List (Recording T)) :
    k.withSum (k.tallyOf rs) (total rs) = k.tallyOf rs := by
  cases k with
  | sum monotonic => exact (Total.foldl_record Total.fresh rs).symm
  | lastValue => rfl
  | minMaxSumCount =>
    show { rs.foldl (fun s r => s.record r.value) Spread.fresh with sum := total rs } =
      rs.foldl (fun (s : Spread T) r => s.record r.value) Spread.fresh
    rw [Spread.foldl_record]
    rfl
  | histogram boundaries recordsExtremes =>
    show { rs.foldl (fun d r => d.record boundaries r.value) (Distribution.fresh boundaries) with
        sum := total rs } =
      rs.foldl (fun (d : Distribution T) r => d.record boundaries r.value) (.fresh boundaries)
    rw [Distribution.foldl_record, Spread.foldl_record]
    rfl

end Kind

/-! ## Many stretches -/

/-- The sum of the stretches grows by that of one more stretch. -/
theorem totalByCycle_concat {cs : List (List (Recording T))} (hcs : cs ≠ []) (rs) :
    totalByCycle (cs ++ [rs]) = add (totalByCycle cs) (total rs) := by
  cases cs with
  | nil => exact absurd rfl hcs
  | cons c rest => exact List.foldl_append

/-- If addition can be regrouped, then the stretches of a sum can be summed apart. -/
theorem total_append [Modular T] (rs rs' : List (Recording T)) :
    total (rs ++ rs') = add (total rs) (total rs') := by
  have hvalues : ∀ (l : List (Recording T)) (a : T),
      l.foldl (fun a r => add a r.value) a = (l.map (·.value)).foldl add a := by
    intro l a
    rw [List.foldl_map]
  rw [total, List.foldl_append, hvalues rs', foldl_add, ← hvalues rs']
  rfl

/-- Sums of words can be taken in one go. -/
theorem totalByCycle_eq_total [Modular T] (cs : List (List (Recording T))) :
    totalByCycle cs = total cs.flatten := by
  induction cs using List.reverseRecOn with
  | nil => rfl
  | append_singleton cs rs ih =>
    rw [List.flatten_concat, total_append, ← ih]
    by_cases hcs : cs = []
    · subst hcs
      exact (Modular.zero_add _).symm
    · exact totalByCycle_concat hcs rs

/-- Where sums are modular, merging the tallies of two stretches is the same as recording both. -/
theorem Kind.merge_tallyOf_of_modular [Ranked T] [Modular T] (k : Kind) {rs rs' : List (Recording T)}
    (hrs : rs ≠ []) (hrs' : rs' ≠ [])
    (htimes : k = .lastValue → (rs ++ rs').Pairwise (·.time < ·.time)) :
    k.merge (k.tallyOf rs) (k.tallyOf rs') = k.tallyOf (rs ++ rs') := by
  have hmerge := k.merge_tallyOf (total rs) hrs hrs' htimes
  rwa [k.withSum_total, ← total_append, k.withSum_total] at hmerge

namespace Kind

/-- The tally of a stretch, if anything was recorded in it. -/
def tally? (k : Kind) (rs : List (Recording T)) : Option (k.Tally T) :=
  if rs = [] then none else some (k.tallyOf rs)

/-- The tallies of several stretches, each taken on its own, merged in their order. -/
def mergedTally? (k : Kind) (cs : List (List (Recording T))) : Option (k.Tally T) :=
  cs.foldl (fun old rs => Option.merge k.merge old (k.tally? rs)) none

/-- Without recordings there is no tally. -/
theorem tally?_nil (k : Kind) : k.tally? ([] : List (Recording T)) = none := rfl

/-- There is none only without recordings. -/
@[simp] theorem tally?_eq_none {k : Kind} {rs : List (Recording T)} :
    k.tally? rs = none ↔ rs = [] := by
  rw [tally?, ite_eq_left_iff]
  simp

/-- The tally of one more cycle is merged into that of the cycles before it. -/
theorem mergedTally?_concat (k : Kind) (cs : List (List (Recording T))) (rs : List (Recording T)) :
    k.mergedTally? (cs ++ [rs]) = Option.merge k.merge (k.mergedTally? cs) (k.tally? rs) :=
  List.foldl_append

/-- The tally of one cycle is that of its recordings. -/
theorem mergedTally?_singleton (k : Kind) (rs : List (Recording T)) :
    k.mergedTally? [rs] = k.tally? rs :=
  Option.merge_none_left

/-- Stretches without recordings have no tally. -/
theorem mergedTally?_eq_none {k : Kind} {cs : List (List (Recording T))} :
    k.mergedTally? cs = none ↔ cs.flatten = [] := by
  induction cs using List.reverseRecOn with
  | nil => exact iff_of_true rfl rfl
  | append_singleton cs rs ih =>
    rw [mergedTally?_concat, Option.merge_eq_none_iff, ih, tally?_eq_none, List.flatten_concat,
      List.append_eq_nil_iff]

end Kind

namespace Accumulation

variable {k : Kind}

/-- Add an accumulation to what there was before it, if there was anything. -/
def join (old : Option (Accumulation T k)) (a : Accumulation T k) : Accumulation T k :=
  (old.map (·.merge a)).getD a

/-- Merge accumulations one after another, the earliest first. -/
def joinAll (as : List (Accumulation T k)) : Option (Accumulation T k) :=
  as.foldl (fun old a => some (join old a)) none

/-- Joining accumulations merges their tallies. -/
theorem tally_join (old : Option (Accumulation T k)) (a : Accumulation T k) :
    some (join old a).tally = Option.merge k.merge (old.map (·.tally)) (some a.tally) := by
  cases old <;> rfl

/-- The accumulation of one more cycle is joined to that of the cycles before it. -/
theorem joinAll_concat (as : List (Accumulation T k)) (a : Accumulation T k) :
    joinAll (as ++ [a]) = some (join (joinAll as) a) :=
  List.foldl_append

/-- Nothing is joined only if there is nothing to join. -/
theorem joinAll_eq_none {as : List (Accumulation T k)} : joinAll as = none ↔ as = [] := by
  induction as using List.reverseRecOn with
  | nil => exact iff_of_true rfl rfl
  | append_singleton as a =>
    rw [joinAll_concat]
    exact iff_of_false nofun (by simp)

/-- Merging keeps the exemplars of the last accumulation. -/
theorem joinAll_exemplars (as : List (Accumulation T k)) :
    (joinAll as).map (·.exemplars) = as.getLast?.map (·.exemplars) := by
  induction as using List.reverseRecOn with
  | nil => rfl
  | append_singleton as a =>
    rw [joinAll_concat, List.getLast?_concat]
    cases joinAll as <;> rfl

/-- Merging the tallies of consecutive stretches gives the tally of all their recordings, with the
sum of the stretches' sums. -/
theorem joinAll_tally [Ranked T] {as : List (Accumulation T k)} {cs : List (List (Recording T))}
    (has : as.map (·.tally) = cs.map k.tallyOf) (hne : ∀ rs ∈ cs, rs ≠ [])
    (htimes : k = .lastValue → cs.flatten.Pairwise (·.time < ·.time)) :
    (joinAll as).map (·.tally) =
      if cs = [] then none else some (k.withSum (k.tallyOf cs.flatten) (totalByCycle cs)) := by
  induction cs using List.reverseRecOn generalizing as with
  | nil =>
    rw [List.map_nil, List.map_eq_nil_iff] at has
    subst has
    rfl
  | append_singleton cs rs ih =>
    rw [List.map_append, List.map_singleton] at has
    obtain ⟨as', last, rfl, has', hlast⟩ := List.map_eq_append_iff.1 has
    obtain ⟨a, rfl, ha⟩ := List.map_eq_singleton_iff.1 hlast
    rw [List.flatten_concat] at htimes
    have ih := ih has' (fun c hc => hne c (List.mem_append_left _ hc))
      fun hk => (List.pairwise_append.1 (htimes hk)).1
    rw [joinAll_concat, if_neg (by simp), Option.map_some, List.flatten_concat]
    by_cases hcs : cs = []
    · -- the first accumulation stays as it is, and its sum was folded in one go
      subst hcs
      rw [List.map_nil, List.map_eq_nil_iff] at has'
      subst has'
      exact congrArg some (ha.trans (k.withSum_total rs).symm)
    · rw [if_neg hcs] at ih
      obtain ⟨old, hold, htally⟩ := Option.map_eq_some_iff.1 ih
      have hflat : cs.flatten ≠ [] := by
        obtain ⟨c, rest, rfl⟩ := List.exists_cons_of_ne_nil hcs
        have hc := hne c (by simp)
        simp [hc]
      rw [hold, totalByCycle_concat hcs]
      have hmerge := k.merge_tallyOf (totalByCycle cs) hflat (hne rs (by simp)) htimes
      exact congrArg some ((congrArg₂ k.merge htally ha).trans hmerge)

end Accumulation

end Metering
