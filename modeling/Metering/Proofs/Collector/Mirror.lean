import Metering.Proofs.Collector.Ledger
import Metering.Proofs.Collector.Limit
import Metering.Proofs.Handle.Alike

/-!
# Collectors in step

Two collectors mirror each other (`Collector.Mirrors`) if their series correspond one by one, with
the same identities, sets and holders and with handles alike, and so does what they keep. Commands
that are alike leave them so and are answered alike (`Mirrors.perform`): nothing that a collector
decides depends on what it samples, nor on how its filter came by the set of a recording. So the
runs look the same but for exemplars and times (`Mirrors.observations_eq`). -/

namespace Metering

variable {T : Type} {k : Kind}

section

variable (sync : Time → Time → Prop)

/-- The series have the same identity, set and holders, and handles alike. -/
structure Series.Alike (s s' : Series T k) : Prop where
  id : s.id = s'.id
  attributes : s.attributes = s'.attributes
  holders : s.holders = s'.holders
  handle : s.handle.Alike sync s'.handle

structure Retained.Alike (old old' : Retained T k) : Prop where
  cumulative : Option.Rel (Accumulation.Alike sync) old.cumulative old'.cumulative
  idle : old.idle = old'.idle

structure Cycle.Alike (cycle cycle' : Cycle T k) : Prop where
  window : cycle.window = cycle'.window
  pending : cycle.pending = cycle'.pending
  fresh : cycle.fresh.Alike (Accumulation.Alike sync) cycle'.fresh
  evicted : cycle.evicted = cycle'.evicted

/-- Commands that do the same in collectors with these filters, as far as numbers go. -/
inductive Command.Alike (filter filter' : KeyFilter) : Command T → Command T → Prop where
  | record {r r' : Recording T} (set : filter.apply r.attributes = filter'.apply r'.attributes)
    (value : r.value = r'.value) (time : sync r.time r'.time) :
    Alike filter filter' (.record r) (.record r')
  | hold (set : AttributeSet) : Alike filter filter' (.hold set) (.hold set)
  | recordHeld (id : Nat) {r r' : Recording T} (value : r.value = r'.value)
    (time : sync r.time r'.time) : Alike filter filter' (.recordHeld id r) (.recordHeld id r')
  | drainHeld (id : Nat) (point point' : AttributeSet) :
    Alike filter filter' (.drainHeld id point) (.drainHeld id point')
  | release (id : Nat) : Alike filter filter' (.release id) (.release id)
  | collect (start time : Time) : Alike filter filter' (.collect start time) (.collect start time)
  | shutdown (start time : Time) :
    Alike filter filter' (.shutdown start time) (.shutdown start time)

/-- The collectors have the same settings, filters and sampling aside, and correspond in all that
they hold. -/
structure Collector.Mirrors (c c' : Collector T k) : Prop where
  stream : c.stream = c'.stream
  temporality : c.config.temporality = c'.config.temporality
  limit : c.config.limit = c'.config.limit
  maxIdle : c.config.maxIdle = c'.config.maxIdle
  live : List.Forall₂ (Series.Alike sync) c.live c'.live
  detached : List.Forall₂ (Series.Alike sync) c.detached c'.detached
  retained : c.retained.Alike (Retained.Alike sync) c'.retained
  lastCollection : c.lastCollection = c'.lastCollection
  overflowCount : c.overflowCount = c'.overflowCount
  shutDown : c.shutDown = c'.shutDown
  nextId : c.nextId = c'.nextId

/-- Collections under way are alike, in collectors that mirror each other. -/
def Collector.InStep (s s' : Cycle T k × Collector T k) : Prop :=
  s.1.Alike sync s'.1 ∧ s.2.Mirrors sync s'.2

end

variable {sync : Time → Time → Prop}

/-- Commands that record nothing do the same, whatever the filters. -/
theorem Command.alike_self {command : Command T} (h : command.recording? = none)
    (filter filter' : KeyFilter) : command.Alike sync filter filter' command := by
  cases command with
  | record r => cases h
  | recordHeld id r => cases h
  | hold set => exact .hold set
  | drainHeld id point => exact .drainHeld id point point
  | release id => exact .release id
  | collect start time => exact .collect start time
  | shutdown start time => exact .shutdown start time

/-- Collectors without series mirror each other, whatever they sample and filter. -/
theorem Collector.mirrors_new (sampling sampling' : SamplingPlan T) (stream : Stream)
    (config : ReaderConfig) (filter : KeyFilter) :
    (new sampling stream config : Collector T k).Mirrors sync
      (new sampling' stream { config with filter }) :=
  ⟨rfl, rfl, rfl, rfl, .nil, .nil, .nil, rfl, rfl, rfl, rfl⟩

namespace Collector.Mirrors

variable {c c' : Collector T k}

/-! ## Finding series -/

/-- The series that are found under a set are alike, if there are any. -/
theorem find? (h : c.Mirrors sync c') (set : AttributeSet) :
    Option.Rel (Series.Alike sync) (c.find? set) (c'.find? set) :=
  rel_find? (fun hs => by rw [hs.attributes]) h.live

/-- The series of an identity are alike, if there are any. -/
theorem series? (h : c.Mirrors sync c') (id : Nat) :
    Option.Rel (Series.Alike sync) (c.series? id) (c'.series? id) :=
  rel_find? (fun hs => by rw [hs.id]) (List.rel_append h.live h.detached)

/-- Mirrors have equally many live series. -/
theorem seriesCount_eq (h : c.Mirrors sync c') : c.seriesCount = c'.seriesCount :=
  h.live.length_eq

/-- Mirrors are at their limits together. -/
theorem isAtLimit_eq (h : c.Mirrors sync c') : c.isAtLimit = c'.isAtLimit := by
  rw [isAtLimit, isAtLimit, h.limit, h.seriesCount_eq, isSome_eq_of_rel (h.find? .overflow)]

/-- Changing the series of an identity in ways that keep series alike. -/
theorem updateSeries (h : c.Mirrors sync c') (id : Nat) {f f' : Series T k → Series T k}
    (hf : ∀ {s s'}, s.Alike sync s' → (f s).Alike sync (f' s')) :
    (c.updateSeries id f).Mirrors sync (c'.updateSeries id f') := by
  have hupdate {l l' : List (Series T k)} (hl : List.Forall₂ (Series.Alike sync) l l') :
      List.Forall₂ (Series.Alike sync) (l.map fun s => if s.id = id then f s else s)
        (l'.map fun s => if s.id = id then f' s else s) := by
    rw [List.forall₂_map_left_iff, List.forall₂_map_right_iff]
    refine hl.imp fun s s' hs => ?_
    -- the identity decides which series is changed, and it is the same on both sides
    rw [← hs.id]
    split
    · exact hf hs
    · exact hs
  exact { h with live := hupdate h.live, detached := hupdate h.detached }

/-! ## Acquiring and releasing -/

/-- Taking series that are alike in hand gives the same identity. -/
theorem take (h : c.Mirrors sync c') {s s' : Series T k} (hs : s.Alike sync s') :
    (c.take s).1 = (c'.take s').1 ∧ (c.take s).2.Mirrors sync (c'.take s').2 := by
  rw [Collector.take, Collector.take, ← hs.id]
  exact ⟨rfl, h.updateSeries s.id fun ht =>
    ⟨ht.id, ht.attributes, congrArg (· + 1) ht.holders, ht.handle⟩⟩

/-- Releasing the series of an identity keeps the same ones in hand. -/
theorem release (h : c.Mirrors sync c') (id : Nat) :
    (c.release id).Mirrors sync (c'.release id) := by
  have hupdate : (c.updateSeries id fun s => { s with holders := s.holders - 1 }).Mirrors sync
      (c'.updateSeries id fun s => { s with holders := s.holders - 1 }) :=
    h.updateSeries id fun ht => ⟨ht.id, ht.attributes, congrArg (· - 1) ht.holders, ht.handle⟩
  refine { hupdate with detached := List.rel_filter (fun s s' hs => ?_) hupdate.detached }
  show decide (0 < s.holders) = true ↔ decide (0 < s'.holders) = true
  rw [hs.holders]

variable [Quantity T]

/-- New series under the same set get the same identity, whatever they sample. -/
theorem openSeries (h : c.Mirrors sync c') (set : AttributeSet) :
    (c.openSeries set).1 = (c'.openSeries set).1 ∧
      (c.openSeries set).2.Mirrors sync (c'.openSeries set).2 := by
  refine ⟨h.nextId, { h with
    live := List.rel_append h.live (.cons ⟨h.nextId, rfl, rfl, Handle.alike_fresh ..⟩ .nil)
    nextId := congrArg (· + 1) h.nextId }⟩

/-- Acquiring gives the same answer. -/
theorem acquire (h : c.Mirrors sync c') (set : AttributeSet) :
    (c.acquire set).1 = (c'.acquire set).1 ∧
      (c.acquire set).2.Mirrors sync (c'.acquire set).2 := by
  have hcounted : ({ c with overflowCount := c.overflowCount + 1 } : Collector T k).Mirrors sync
      { c' with overflowCount := c'.overflowCount + 1 } :=
    { h with overflowCount := congrArg (· + 1) h.overflowCount }
  -- both find the set or neither does; then both have room or neither; then the overflow series
  rcases cases_of_rel (h.find? set) with ⟨hnone, hnone'⟩ | ⟨s, s', hs, hs', halike⟩
  · cases hlimit : c.isAtLimit with
    | false =>
      rw [acquire_of_room hnone hlimit, acquire_of_room hnone' (h.isAtLimit_eq ▸ hlimit)]
      exact h.openSeries set
    | true =>
      have hlimit' : c'.isAtLimit = true := h.isAtLimit_eq ▸ hlimit
      rcases cases_of_rel (h.find? .overflow) with ⟨hover, hover'⟩ | ⟨s, s', hs, hs', halike⟩
      · rw [acquire_of_overflows hnone hlimit hover, acquire_of_overflows hnone' hlimit' hover']
        exact hcounted.openSeries .overflow
      · rw [acquire_of_shared hnone hlimit hs, acquire_of_shared hnone' hlimit' hs']
        exact hcounted.take halike
  · rw [acquire_of_known hs, acquire_of_known hs']
    exact h.take halike

/-! ## Recording and draining -/

/-- Recordings of the same value into the series of an identity. -/
theorem recordHeld (h : c.Mirrors sync c') (id : Nat) {r r' : Recording T}
    (hvalue : r.value = r'.value) (htime : sync r.time r'.time) :
    (c.recordHeld id r).Mirrors sync (c'.recordHeld id r') :=
  h.updateSeries id fun hs =>
    ⟨hs.id, hs.attributes, hs.holders, hs.handle.record hvalue htime⟩

/-- Direct drains of the series of an identity find what is alike. -/
theorem drainHeld (h : c.Mirrors sync c') (id : Nat) (point point' : AttributeSet) :
    Option.Rel (Accumulation.Alike sync) (c.drainHeld id point).1 (c'.drainHeld id point').1 ∧
      (c.drainHeld id point).2.Mirrors sync (c'.drainHeld id point').2 := by
  refine ⟨?_, h.updateSeries id fun hs =>
    ⟨hs.id, hs.attributes, hs.holders, (hs.handle.drain point point').2⟩⟩
  rw [Collector.drainHeld, Collector.drainHeld]
  rcases cases_of_rel (h.series? id) with ⟨hnone, hnone'⟩ | ⟨s, s', hs, hs', halike⟩
  · rw [hnone, hnone']
    exact .none
  · rw [hs, hs']
    exact (halike.handle.drain point point').1

/-- Recordings whose sets are the same are alike. -/
theorem record (h : c.Mirrors sync c') {r r' : Recording T}
    (hset : c.config.filter.apply r.attributes = c'.config.filter.apply r'.attributes)
    (hvalue : r.value = r'.value) (htime : sync r.time r'.time) :
    (c.record r).Mirrors sync (c'.record r') := by
  obtain ⟨hid, hacquire⟩ := h.acquire (c.config.filter.apply r.attributes)
  rw [Collector.record, Collector.record, ← h.shutDown, ← hset]
  split
  · exact h
  · dsimp only
    rw [← hid]
    exact (hacquire.recordHeld _ hvalue htime).release _

/-! ## Collecting -/

/-- Draining a series of the same identity. -/
theorem drainSeries (h : c.Mirrors sync c') {cycle cycle' : Cycle T k}
    (hcycle : cycle.Alike sync cycle') (id : Nat) :
    InStep sync (c.drainSeries cycle id) (c'.drainSeries cycle' id) := by
  have hfind : Option.Rel (Series.Alike sync) (c.live.find? (·.id == id))
      (c'.live.find? (·.id == id)) := rel_find? (fun hs => by rw [hs.id]) h.live
  rcases cases_of_rel hfind with ⟨hnone, hnone'⟩ | ⟨s, s', hs, hs', halike⟩
  · simp only [Collector.drainSeries, hnone, hnone']
    exact ⟨hcycle, h⟩
  · obtain ⟨hfound, hhandle⟩ := halike.handle.drain s.attributes s.attributes
    let handle := (s.handle.drain s.attributes).2
    let handle' := (s'.handle.drain s.attributes).2
    have hupdate : (c.updateSeries id fun t => { t with handle }).Mirrors sync
        (c'.updateSeries id fun t => { t with handle := handle' }) :=
      h.updateSeries id fun ht => ⟨ht.id, ht.attributes, ht.holders, hhandle⟩
    -- the series is kept in the table of both, with an idle count that is set or raised by one
    have hretain (idle : Nat → Nat) := h.retained.upsert s.attributes
      (f := fun old => { old.getD {} with idle := idle (old.getD {}).idle })
      (g := fun old => { old.getD {} with idle := idle (old.getD {}).idle }) fun hold => by
        cases hold with
        | none => exact ⟨.none, rfl⟩
        | some hold => exact ⟨hold.cumulative, congrArg idle hold.idle⟩
    simp only [Collector.drainSeries, hs, hs']
    rw [← halike.attributes]
    rcases cases_of_rel hfound with ⟨hnone, hnone'⟩ | ⟨a, a', ha, ha', haa⟩
    · rw [hnone, hnone']
      exact ⟨hcycle, { hupdate with retained := hretain (· + 1) }⟩
    · rw [ha, ha']
      exact ⟨{ hcycle with fresh := hcycle.fresh.upsert s.attributes fun _ => haa },
        { hupdate with retained := hretain fun _ => 0 }⟩

omit [Quantity T] in
/-- Steps that keep in step do so when they follow one another. -/
theorem foldl {α : Type} {f : Cycle T k × Collector T k → α → Cycle T k × Collector T k}
    (hf : ∀ {s s'} (a : α), InStep sync s s' → InStep sync (f s a) (f s' a)) (l : List α)
    {s s' : Cycle T k × Collector T k} (hs : InStep sync s s') :
    InStep sync (l.foldl f s) (l.foldl f s') := by
  induction l generalizing s s' with
  | nil => exact hs
  | cons a rest ih => exact ih (hf a hs)

/-- Draining the next series that is pending, which is the same one on both sides. -/
theorem drainNext (h : c.Mirrors sync c') {cycle cycle' : Cycle T k}
    (hcycle : cycle.Alike sync cycle') :
    InStep sync (c.drainNext cycle) (c'.drainNext cycle') := by
  rw [Collector.drainNext, Collector.drainNext, ← hcycle.pending]
  cases cycle.pending with
  | nil => exact ⟨hcycle, h⟩
  | cons id rest =>
    have hrest : ({ cycle with pending := rest } : Cycle T k).Alike sync
        { cycle' with pending := rest } :=
      ⟨hcycle.window, rfl, hcycle.fresh, hcycle.evicted⟩
    exact h.drainSeries hrest id

/-- Draining all that are pending, by the steps for each of them. -/
theorem drainPending (h : c.Mirrors sync c') {cycle cycle' : Cycle T k}
    (hcycle : cycle.Alike sync cycle') :
    InStep sync (c.drainPending cycle) (c'.drainPending cycle') := by
  rw [Collector.drainPending, Collector.drainPending, ← hcycle.pending]
  exact foldl (fun _ hs => hs.2.drainNext hs.1) _ ⟨hcycle, h⟩

omit [Quantity T] in
/-- Collections begin with the same window and the same series pending. -/
theorem beginCycle (h : c.Mirrors sync c') (start time : Time) :
    InStep sync (c.beginCycle start time) (c'.beginCycle start time) := by
  refine ⟨⟨?_, map_eq_of_rel (fun hs => hs.id) h.live, .nil, rfl⟩,
    { h with lastCollection := rfl }⟩
  exact congrArg (fun last => Window.mk start (last.getD start) time) h.lastCollection

variable (hsync : k = .lastValue → KeepsOrder sync)

include hsync

/-- Evicting the series of a set. -/
theorem evict (h : c.Mirrors sync c') {cycle cycle' : Cycle T k}
    (hcycle : cycle.Alike sync cycle') (set : AttributeSet) :
    InStep sync (c.evict cycle set) (c'.evict cycle' set) := by
  have hgone : ({ cycle with evicted := cycle.evicted ++ [set] } : Cycle T k).Alike sync
      { cycle' with evicted := cycle'.evicted ++ [set] } :=
    { hcycle with evicted := congrArg (· ++ [set]) hcycle.evicted }
  -- both have a series of the set, held or not, or neither has one
  rcases cases_of_rel (h.find? set) with ⟨hnone, hnone'⟩ | ⟨s, s', hs, hs', halike⟩
  · simp only [Collector.evict, hnone, hnone']
    exact ⟨hgone, h⟩
  · simp only [Collector.evict, hs, hs']
    rw [← halike.holders]
    split
    · exact ⟨hcycle, h⟩
    · have hleft : ({ c with live := c.live.filter fun other => other.id != s.id } :
          Collector T k).Mirrors sync
            { c' with live := c'.live.filter fun other => other.id != s'.id } := by
        refine { h with live := List.rel_filter (fun t t' ht => ?_) h.live }
        show (t.id != s.id) = true ↔ (t'.id != s'.id) = true
        rw [ht.id, halike.id]
      obtain ⟨hfound, -⟩ := halike.handle.drain set set
      rcases cases_of_rel hfound with ⟨hnone, hnone'⟩ | ⟨late, late', hl, hl', hlate⟩
      · rw [hnone, hnone']
        exact ⟨hgone, hleft⟩
      · rw [hl, hl']
        -- a drain that found something late is merged into what the collection found before
        refine ⟨{ hgone with fresh := hcycle.fresh.upsert set fun hold => ?_ }, hleft⟩
        cases hold with
        | none => exact hlate
        | some hold => exact hold.merge hsync hlate

/-- Evicting what is idle: the same sets are, since the idle counts are the same. -/
theorem evictIdle (h : c.Mirrors sync c') {cycle cycle' : Cycle T k}
    (hcycle : cycle.Alike sync cycle') :
    InStep sync (c.evictIdle cycle) (c'.evictIdle cycle') := by
  rw [Collector.evictIdle, Collector.evictIdle, ← h.maxIdle]
  cases c.config.maxIdle with
  | none => exact ⟨hcycle, h⟩
  | some limit =>
    have hidle : c.idleSeries limit = c'.idleSeries limit := by
      refine map_eq_of_rel (fun he => he.1) (List.rel_filter (fun e e' he => ?_) h.retained)
      show decide (limit ≤ e.2.idle) = true ↔ decide (limit ≤ e'.2.idle) = true
      rw [he.2.idle]
    dsimp only
    rw [← hidle]
    exact foldl (fun set hs => hs.2.evict hsync hs.1 set) _ ⟨hcycle, h⟩

/-! ## Reporting -/

/-- Absorbing what is alike into the totals of a set, if there are any yet. -/
theorem absorb {retained retained' : Table AttributeSet (Retained T k)}
    (hretained : retained.Alike (Retained.Alike sync) retained') (set : AttributeSet)
    {a a' : Accumulation T k} (ha : a.Alike sync a') :
    (Collector.absorb retained set a).Alike (Retained.Alike sync)
      (Collector.absorb retained' set a') := by
  refine hretained.upsert set fun hold => ?_
  cases hold with
  | none => exact ⟨.some ha, rfl⟩
  | some hold =>
    refine ⟨.some ?_, hold.idle⟩
    rcases cases_of_rel hold.cumulative with ⟨hnone, hnone'⟩ | ⟨b, b', hb, hb', hbb⟩
    · simp only [Option.getD_some, hnone, hnone']
      exact ha
    · simp only [Option.getD_some, hb, hb']
      exact hbb.merge hsync ha

/-- Absorbing all that a collection found. -/
theorem absorbAll {retained retained' : Table AttributeSet (Retained T k)}
    {fresh fresh' : Table AttributeSet (Accumulation T k)}
    (hretained : retained.Alike (Retained.Alike sync) retained')
    (hfresh : fresh.Alike (Accumulation.Alike sync) fresh') :
    (Collector.absorbAll retained fresh).Alike (Retained.Alike sync)
      (Collector.absorbAll retained' fresh') := by
  refine List.rel_foldl (P := Table.Alike (Retained.Alike sync)) (fun t t' ht e e' he => ?_)
    hretained hfresh
  obtain ⟨set, a⟩ := e
  obtain ⟨set', a'⟩ := e'
  obtain ⟨rfl, ha⟩ := he
  exact absorb hsync ht set ha

/-- What is reported is alike: the findings themselves, or the totals with them. -/
theorem output (h : c.Mirrors sync c') {cycle cycle' : Cycle T k}
    (hcycle : cycle.Alike sync cycle') :
    (c.output cycle).Alike (Accumulation.Alike sync) (c'.output cycle') := by
  rw [Collector.output, Collector.output, ← h.temporality]
  cases c.config.temporality with
  | delta => exact hcycle.fresh
  | cumulative =>
    exact (absorbAll hsync h.retained hcycle.fresh).filterMap fun hold => hold.cumulative

/-- Finishing a collection reports the same, exemplars and times aside. -/
theorem finish (h : c.Mirrors sync c') {cycle cycle' : Cycle T k}
    (hcycle : cycle.Alike sync cycle') :
    (c.finish cycle).1.map Metric.bare = (c'.finish cycle').1.map Metric.bare ∧
      (c.finish cycle).2.Mirrors sync (c'.finish cycle').2 := by
  have houtput := h.output hsync hcycle
  refine ⟨?_, ?_⟩
  -- points differ only in what `bare` leaves out
  · have hbare (t : Table AttributeSet (Accumulation T k)) :
        (t.entries.map fun e => e.2.point e.1).map Point.bare =
          t.entries.map fun e => e.2.bare.point e.1 := by
      rw [List.map_map]
      exact List.map_congr_left fun e _ => e.2.bare_point e.1
    have hpoints : ((c.output cycle).entries.map fun e => e.2.bare.point e.1) =
        (c'.output cycle').entries.map fun e => e.2.bare.point e.1 :=
      map_eq_of_rel (fun he => by rw [he.1, he.2.bare_eq]) houtput
    rw [finish_fst, finish_fst, ← houtput.isEmpty_eq]
    split
    · rfl
    · simp only [Option.map_some, Metric.bare, Metric.ofSeries, hbare, hpoints, h.stream,
        h.temporality, hcycle.window]
  · rw [finish_snd, finish_snd, ← h.temporality, ← hcycle.evicted]
    refine { h with retained := Table.Alike.eraseAll ?_ _ }
    cases c.config.temporality with
    | delta => exact h.retained
    | cumulative => exact absorbAll hsync h.retained hcycle.fresh

/-- Collections report the same, exemplars and times aside. -/
theorem collect (h : c.Mirrors sync c') (start time : Time) :
    (c.collect start time).1.map Metric.bare = (c'.collect start time).1.map Metric.bare ∧
      (c.collect start time).2.Mirrors sync (c'.collect start time).2 := by
  obtain ⟨hbegun, hbegin⟩ := h.beginCycle start time
  obtain ⟨hdrained, hdrain⟩ := hbegin.drainPending hbegun
  obtain ⟨hevicted, hevict⟩ := hdrain.evictIdle hsync hdrained
  exact hevict.finish hsync hevicted

/-- Shutdowns report the same, exemplars and times aside, and leave the same series in hand. -/
theorem shutdown (h : c.Mirrors sync c') (start time : Time) :
    (c.shutdown start time).1.map Metric.bare = (c'.shutdown start time).1.map Metric.bare ∧
      (c.shutdown start time).2.Mirrors sync (c'.shutdown start time).2 := by
  rw [Collector.shutdown, Collector.shutdown, ← h.shutDown]
  split
  · exact ⟨rfl, h⟩
  · have hclosed : ({ c with shutDown := true } : Collector T k).Mirrors sync
        { c' with shutDown := true } := { h with shutDown := rfl }
    obtain ⟨hlast, hcollect⟩ := hclosed.collect hsync start time
    -- nothing is live or kept afterwards; series that somebody holds are detached
    refine ⟨hlast, { hcollect with
      live := .nil
      detached := List.rel_append hcollect.detached
        (List.rel_filter (fun s s' hs => ?_) hcollect.live)
      retained := .nil }⟩
    show decide (0 < s.holders) = true ↔ decide (0 < s'.holders) = true
    rw [hs.holders]

/-! ## Over a run -/

/-- Commands that are alike are answered alike. -/
theorem perform (h : c.Mirrors sync c') {command command' : Command T}
    (hcommand : command.Alike sync c.config.filter c'.config.filter command') :
    (c.perform command).1.bare = (c'.perform command').1.bare ∧
      (c.perform command).2.Mirrors sync (c'.perform command').2 := by
  cases hcommand with
  | record hset hvalue htime => exact ⟨rfl, h.record hset hvalue htime⟩
  | hold set =>
    obtain ⟨hid, hacquire⟩ := h.acquire set
    exact ⟨congrArg Reply.holding hid, hacquire⟩
  | recordHeld id hvalue htime => exact ⟨rfl, h.recordHeld id hvalue htime⟩
  | drainHeld id point point' =>
    obtain ⟨hfound, hdrain⟩ := h.drainHeld id point point'
    exact ⟨congrArg Reply.drained (option_map_eq_of_rel (fun ha => ha.bare_eq) hfound), hdrain⟩
  | release id => exact ⟨rfl, h.release id⟩
  | collect start time =>
    obtain ⟨hreport, hcollect⟩ := h.collect hsync start time
    exact ⟨congrArg Reply.reported hreport, hcollect⟩
  | shutdown start time =>
    obtain ⟨hreport, hshutdown⟩ := h.shutdown hsync start time
    exact ⟨congrArg Reply.reported hreport, hshutdown⟩

/-- **Mirroring.** Of collectors that mirror each other the same is observed, step by step. -/
theorem observations_eq (h : c.Mirrors sync c') {commands commands' : List (Command T)}
    (hcommands : List.Forall₂ (Command.Alike sync c.config.filter c'.config.filter) commands
      commands') : c.observations commands = c'.observations commands' := by
  induction commands generalizing c c' commands' with
  | nil =>
    cases hcommands
    rfl
  | cons command rest ih =>
    obtain ⟨command', rest', hcommand, hrest, rfl⟩ := List.forall₂_cons_left_iff.1 hcommands
    obtain ⟨hreply, hperform⟩ := h.perform hsync hcommand
    have hconfig := config_perform c command
    have hconfig' := config_perform c' command'
    have hobserve : c.observe command = c'.observe command' := by
      rw [observe, observe, hreply, hperform.seriesCount_eq, hperform.overflowCount]
    rw [observations, observations, hobserve, ih hperform (hconfig ▸ hconfig' ▸ hrest)]

end Collector.Mirrors

end Metering
