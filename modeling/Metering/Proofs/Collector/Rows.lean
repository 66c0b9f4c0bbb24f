import Metering.Proofs.Collector.Hands
import Metering.Proofs.Collector.Routing
import Metering.Proofs.Collector.Tracking
import Metering.Proofs.Table.ByKey

/-!
# A collector as a table

What a collector knows of a series comes to a `Row`, and the rows of the live series make a table by
their sets. For a collector that only records and collects (`Plain`) every step is one of the table:
a recording that is not redirected to the overflow series enters the row of its set
(`Plain.rows_record`), and a collection turns each row by itself into what it accounts for
(`Plain.accounts_tallies`) and into what is left of it (`Plain.rows_collect`). -/

namespace Metering

variable {T : Type} {k : Kind} [Quantity T]

/-! ## One series -/

/-- What is known of a series that nobody holds. -/
structure Row (T : Type) (k : Kind) where
  /-- What was recorded since the last collection. -/
  fresh : Option (k.Tally T) := none
  /-- What was recorded before that, if reports are cumulative. -/
  cumulative : Option (k.Tally T) := none
  /-- How many collections in a row found nothing. -/
  idle : Nat := 0

namespace Row

/-- Take in a recording. -/
def record (row : Row T k) (r : Recording T) : Row T k :=
  { row with fresh := some (k.record (row.fresh.getD k.fresh) r.value r.time) }

/-- All that was recorded, if reports are cumulative. -/
def total (row : Row T k) : Option (k.Tally T) := Option.merge k.merge row.cumulative row.fresh

/-- What a collection accounts for. -/
def account (temporality : Temporality) (row : Row T k) : Option (k.Tally T) :=
  match temporality with
  | .delta => row.fresh
  | .cumulative => row.total

omit [Quantity T] in
/-- How many collections in a row found nothing, after one more. -/
def idleNext (row : Row T k) : Nat := if row.fresh.isSome then 0 else row.idle + 1

/-- What a collection leaves of a series, unless it evicts the series. -/
def next (config : ReaderConfig) (row : Row T k) : Option (Row T k) :=
  if config.maxIdle.any (decide <| · ≤ row.idleNext) then none
  else some
    { cumulative := match config.temporality with
        | .delta => row.cumulative
        | .cumulative => row.total
      idle := row.idleNext }

end Row

/-- The tally of a stretch takes in a recording at its end. -/
theorem Kind.tally?_concat (k : Kind) (rs : List (Recording T)) (r : Recording T) :
    k.tally? (rs ++ [r]) = some (k.record ((k.tally? rs).getD k.fresh) r.value r.time) := by
  have hconcat : k.tallyOf (rs ++ [r]) = k.record (k.tallyOf rs) r.value r.time :=
    List.foldl_append
  by_cases hrs : rs = []
  · simp [tally?, hrs, tallyOf, recordAll]
  · simp [tally?, hrs, hconcat]

namespace Collector

/-- What is known of a live series. -/
def row (c : Collector T k) (s : Series T k) : Row T k where
  fresh := s.yield.map (·.tally)
  cumulative := (c.kept s.attributes).cumulative.map (·.tally)
  idle := (c.kept s.attributes).idle

/-- What is known of the live series, by their sets. -/
def rows (c : Collector T k) : Table AttributeSet (Row T k) :=
  ⟨c.live.map fun s => (s.attributes, c.row s)⟩

/-- The rows have the sets of the live series. -/
theorem keys_rows (c : Collector T k) : c.rows.keys = c.names.map (·.2) := by
  simp [rows, names, Table.keys, Series.name]

/-- There is a row for every live series. -/
theorem size_rows (c : Collector T k) : c.rows.size = c.seriesCount := List.length_map ..

/-- No two rows have the same set. -/
theorem Distinct.unique_rows {c : Collector T k} (h : c.Distinct) : c.rows.Unique := by
  rw [Table.Unique, keys_rows]
  exact List.pairwise_map.2 h.sets

omit [Quantity T] in
/-- A recording of the set would be redirected to the overflow series. -/
def redirects (c : Collector T k) (set : AttributeSet) : Bool :=
  (c.find? set).isNone && c.isAtLimit && !(set == .overflow)

/-- A collector that only recorded and collected. -/
structure Plain (c : Collector T k) (l : Ledger T) : Prop extends c.Routed l where
  tracked : c.Tracked
  within : c.WithinLimit
  unheld : c.Hands (fun _ => 0) fun _ => 0

namespace Plain

variable {c : Collector T k} {l : Ledger T}

/-- A new collector recorded nothing. -/
theorem new (sampling : SamplingPlan T) (stream : Stream) (config : ReaderConfig) :
    (Collector.new sampling stream config : Collector T k).Plain {} where
  toRouted := .new sampling stream config
  tracked := .new sampling stream config
  within := .new sampling stream config
  unheld := .new sampling stream config

/-- Recordings and collections keep a collector plain, part by part. -/
theorem perform (h : c.Plain l) {command : Command T} (hplain : command.IsPlain)
    (hreflexive : command.IsReflexive c.config.filter) :
    (c.perform command).2.Plain (c.note l command) where
  toRouted := h.toRouted.perform hplain hreflexive
  tracked := tracked_perform h.distinct h.tracked hreflexive
  within := h.within.perform command
  unheld := by
    cases command, hplain using Command.IsPlain.cases with
    | record r => exact h.unheld.record h.within r
    | collect start time => exact h.unheld.collect h.distinct start time

/-- A recording keeps a collector plain, if its set equals itself. -/
theorem record (h : c.Plain l) {r : Recording T}
    (hreflexive : (Command.record r).IsReflexive c.config.filter) :
    (c.record r).Plain (c.note l (.record r)) := by
  have hplain : (Command.record r).IsPlain := trivial
  exact h.perform hplain hreflexive

/-- A collection keeps a collector plain. -/
theorem collect (h : c.Plain l) (start time : Time) :
    (c.collect start time).2.Plain l.close := by
  have hplain : (Command.collect (T := T) start time).IsPlain := trivial
  exact h.perform hplain trivial

/-- Every run that only records and collects keeps a collector plain. -/
theorem run (h : c.Plain l) {commands : List (Command T)}
    (hplain : ∀ command ∈ commands, command.IsPlain)
    (hreflexive : ∀ command ∈ commands, command.IsReflexive c.config.filter) :
    (c.run commands).2.Plain (c.ledger l commands) :=
  run_of_perform perform h hplain hreflexive

/-- Nobody has a series in hand between commands. -/
theorem holders_eq_zero (h : c.Plain l) {s : Series T k} (hs : s ∈ c.live) : s.holders = 0 :=
  h.unheld.holders s hs

end Plain

/-! ## Recording -/

/-- What is known of a name according to a ledger. -/
def rowOf (c : Collector T k) (l : Ledger T) (n : Nat × AttributeSet) : Row T k where
  fresh := k.tally? (l.since n.1)
  cumulative := (c.kept n.2).cumulative.map (·.tally)
  idle := (c.kept n.2).idle

/-- The rows of a collector can be read off its names and its ledger. -/
theorem Follows.rows_eq {c : Collector T k} {l : Ledger T} (h : c.Follows l) :
    c.rows = ⟨c.names.map fun n => (n.2, c.rowOf l n)⟩ := by
  rw [rows, names, List.map_map]
  refine congrArg Table.mk (List.map_congr_left fun s hs => congrArg (Prod.mk s.attributes) ?_)
  rw [row, h.yield_tally hs]
  rfl

/-- A recording into a series enters its row. -/
theorem rowOf_enter_self (c : Collector T k) (l : Ledger T) (n : Nat × AttributeSet)
    (r : Recording T) : c.rowOf (l.enter n.1 r) n = (c.rowOf l n).record r := by
  rw [rowOf, l.since_enter_self, k.tally?_concat]
  rfl

/-- A recording into a series leaves the rows of the others alone. -/
theorem rowOf_enter_ne (c : Collector T k) (l : Ledger T) {id : Nat} {n : Nat × AttributeSet}
    (hne : n.1 ≠ id) (r : Recording T) : c.rowOf (l.enter id r) n = c.rowOf l n := by
  rw [rowOf, l.since_enter_ne (Ne.symm hne)]
  rfl

/-- Acquiring does not touch what is kept of earlier cycles. -/
theorem retained_acquire (c : Collector T k) (set : AttributeSet) :
    (c.acquire set).2.retained = c.retained := by
  obtain ⟨count, ⟨s, -, heq⟩ | ⟨new, -, -, heq⟩⟩ := c.acquire_cases set <;> rw [heq] <;> rfl

theorem lastCollection_acquire (c : Collector T k) (set : AttributeSet) :
    (c.acquire set).2.lastCollection = c.lastCollection := by
  obtain ⟨count, ⟨s, -, heq⟩ | ⟨new, -, -, heq⟩⟩ := c.acquire_cases set <;> rw [heq] <;> rfl

/-- A recording does not move it either. -/
theorem lastCollection_record {c : Collector T k} (h : c.shutDown = false) (r : Recording T) :
    (c.record r).lastCollection = c.lastCollection := by
  rw [record_of_running h]
  exact c.lastCollection_acquire _

/-- A recording leaves what is kept as it was. -/
theorem kept_record {c : Collector T k} (h : c.shutDown = false) (r : Recording T) :
    (c.record r).kept = c.kept := by
  have hretained : (c.record r).retained = c.retained := by
    rw [record_of_running h]
    exact c.retained_acquire _
  funext set
  rw [kept, kept, hretained]

/-- A set that is not redirected has a live series, or one is opened under it. -/
theorem acquire_of_not_redirected {c : Collector T k} {set : AttributeSet} (hset : set.IsProper)
    (hroom : c.redirects set = false) :
    (∃ s, c.find? set = some s ∧ c.acquire set = c.take s) ∨
      c.find? set = none ∧
        ∃ count, c.acquire set = { c with overflowCount := count }.openSeries set := by
  cases hfind : c.find? set with
  | some s => exact .inl ⟨s, rfl, acquire_of_known hfind⟩
  | none =>
    refine .inr ⟨rfl, ?_⟩
    cases hlimit : c.isAtLimit with
    | false => exact ⟨c.overflowCount, acquire_of_room hfind hlimit⟩
    | true =>
      -- at the limit, only the overflow set itself is not redirected
      have hover : (set == .overflow) = true := by simpa [redirects, hfind, hlimit] using hroom
      obtain rfl : set = .overflow := (hset.beq_iff rfl).1 hover
      exact ⟨c.overflowCount + 1, acquire_of_overflows hfind hlimit hfind⟩

/-- **A recording is one of the table.** It enters the row of its set. -/
theorem Plain.rows_record {c : Collector T k} {l : Ledger T} (h : c.Plain l) {r : Recording T}
    (hset : (c.setOf r).IsProper) (hroom : c.redirects (c.setOf r) = false) :
    (c.record r).rows = c.rows.upsert (c.setOf r) fun old => (old.getD {}).record r := by
  let id := (c.acquire (c.setOf r)).1
  have hnote : c.note l (.record r) = l.enter id r := by
    rw [note, h.running]
    rfl
  have hperform : (c.perform (.record r)).2.Follows (c.note l (.record r)) :=
    h.toFollows.perform trivial
  have hfollows : (c.record r).Follows (l.enter id r) := hnote ▸ hperform
  have hrow (n : Nat × AttributeSet) :
      (c.record r).rowOf (l.enter id r) n = c.rowOf (l.enter id r) n := by
    rw [rowOf, kept_record h.running]
    rfl
  rw [hfollows.rows_eq, h.toFollows.rows_eq, names_record h.running]
  simp only [hrow]
  -- the series of the set is live and its row changes, or it is opened and its row is new
  rcases acquire_of_not_redirected hset hroom with ⟨s, hfind, heq⟩ | ⟨hfind, count, heq⟩
  · obtain ⟨hs, hlive⟩ := c.mem_of_find? hfind
    have hname : s.name ∈ c.names := List.mem_map_of_mem hlive
    have hid : id = s.id := congrArg Prod.fst heq
    rw [heq, names_take, Table.upsert_rows h.distinct.sets hname hs]
    refine congrArg Table.mk (List.map_congr_left fun n hn => congrArg (Prod.mk n.2) ?_)
    -- the row that changes is that of the series
    by_cases hsame : (n.2 == c.setOf r) = true
    · obtain rfl : n = s.name := h.distinct.name_inj hn hname (BEq.trans hsame (BEq.symm hs))
      rw [if_pos hsame, hid]
      exact c.rowOf_enter_self l s.name r
    · rw [if_neg hsame]
      refine c.rowOf_enter_ne l (fun heq => hsame ?_) r
      obtain rfl : n = s.name :=
        List.inj_on_of_nodup_map h.distinct.ids hn hname (heq.trans hid)
      exact hs
  · have hid : id = c.nextId := congrArg Prod.fst heq
    have hnew : ∀ n ∈ c.names, (n.2 == c.setOf r) = false := by
      intro n hn
      obtain ⟨s, hs, rfl⟩ := List.mem_map.1 hn
      exact Bool.not_eq_true _ ▸ List.find?_eq_none.1 hfind s hs
    have hempty : c.rowOf l (c.nextId, c.setOf r) = {} := by
      rw [rowOf, h.tracked.kept_of_new hfind, Ledger.since_of_unused h.toFollows.unused]
      rfl
    rw [heq, names_openSeries, hid, Table.upsert, Table.upsertEntries_of_new, List.map_append]
    · refine congrArg Table.mk (congrArg₂ List.append (List.map_congr_left fun n hn => ?_) ?_)
      · rw [c.rowOf_enter_ne l (Nat.ne_of_lt (h.distinct.lt_nextId n hn))]
      · have hentered := c.rowOf_enter_self l (c.nextId, c.setOf r) r
        rw [hempty] at hentered
        exact congrArg (fun row => [(c.setOf r, row)]) hentered
    · intro e he
      obtain ⟨n, hn, rfl⟩ := List.mem_map.1 he
      exact hnew n hn

/-! ## Collecting -/

/-- What is kept of a series after a collection, by its tally. -/
theorem tally_retained (c : Collector T k) (s : Series T k) (temporality : Temporality) :
    (s.retained temporality (c.kept s.attributes)).cumulative.map (·.tally) =
      match temporality with
      | .delta => (c.row s).cumulative
      | .cumulative => (c.row s).total := by
  cases temporality with
  | delta => rfl
  | cumulative =>
    simp only [Series.retained, Row.total, row]
    cases s.yield with
    | none => cases (c.kept s.attributes).cumulative <;> rfl
    | some a => cases (c.kept s.attributes).cumulative <;> rfl

/-- How long a series will have been idle after a collection. -/
theorem idle_retained (c : Collector T k) (s : Series T k) (temporality : Temporality) :
    (s.retained temporality (c.kept s.attributes)).idle = (c.row s).idleNext := by
  simp only [Series.retained, Row.idleNext, row, Option.isSome_map]

namespace Plain

variable {c : Collector T k} {l : Ledger T}

/-- A collection evicts a series by its row. -/
theorem evicts_eq (h : c.Plain l) {s : Series T k} (hs : s ∈ c.live) :
    c.evicts s = c.config.maxIdle.any (decide <| · ≤ (c.row s).idleNext) := by
  have hidle : (s.tick (some (c.kept s.attributes))).idle = (c.row s).idleNext := by
    simp only [Series.tick, Row.idleNext, row, Option.isSome_map, Option.getD_some]
  rw [evicts, hidle, h.holders_eq_zero hs]
  cases c.config.maxIdle <;> simp

/-- **A collection is one of the table.** It leaves of each row what the row alone says. -/
theorem rows_collect (h : c.Plain l) (start time : Time) :
    (c.collect start time).2.rows = c.rows.filterMap (Row.next c.config) := by
  have hafter := collect_tracked h.distinct h.detached h.tracked start time
  let d := (c.collect start time).2
  have hlive : d.live = (c.live.filter (!c.evicts ·)).map Series.drained := congrArg live hafter
  -- a series that stays: its row afterwards, by what is kept of it and by its drained handle
  have hrow {s : Series T k} (hs : s ∈ c.live) (hevicts : c.evicts s = false) :
      some (d.row s.drained) = (c.row s).next c.config := by
    have hkept : d.kept s.drained.attributes =
        s.retained c.config.temporality (c.kept s.attributes) :=
      kept_collect h.distinct h.detached h.tracked start time hs hevicts
    have hyield : s.drained.yield = none :=
      congrArg Prod.fst (Handle.drain_of_not_recorded (s.handle.recorded_drain _) _)
    rw [Row.next, ← h.evicts_eq hs, hevicts, if_neg Bool.false_ne_true, row, hkept, hyield,
      c.tally_retained s, c.idle_retained s]
    rfl
  rw [rows, Table.filterMap, show (c.collect start time).2.live = d.live from rfl, hlive,
    List.map_map, rows, List.filterMap_map, ← List.filterMap_eq_map, List.filterMap_filter]
  -- series by series: one that is evicted has no row afterwards, one that stays has this one
  refine congrArg Table.mk (List.filterMap_congr fun s hs => ?_)
  cases hevicts : c.evicts s with
  | true =>
    have hgone : (c.row s).next c.config = none := by
      rw [Row.next, ← h.evicts_eq hs, hevicts, if_pos rfl]
    simp [hgone]
  | false => simp [← hrow hs hevicts, d, Series.drained]

/-- **A collection accounts by the table.** Each account is what the row of its set says. -/
theorem accounts_tallies (h : c.Plain l) (start time : Time) :
    (c.accounts start time).map (fun e => (e.1, e.2.tally)) =
      (c.rows.filterMap (Row.account c.config.temporality)).entries := by
  rw [rows, Table.filterMap, List.filterMap_map]
  cases htemporality : c.config.temporality with
  | delta =>
    rw [accounts_delta h.distinct h.detached htemporality, findings, List.map_filterMap]
    refine List.filterMap_congr fun s _ => ?_
    simp only [Function.comp_apply, Row.account, row, Option.map_map, Function.comp_def]
  | cumulative =>
    rw [accounts_cumulative h.distinct h.detached h.tracked htemporality, List.map_filterMap]
    refine List.filterMap_congr fun s _ => ?_
    have htotal : (s.retained .cumulative (c.kept s.attributes)).cumulative.map (·.tally) =
        (c.row s).total := c.tally_retained s .cumulative
    rw [Function.comp_apply, Row.account, ← htotal]
    simp only [Option.map_map, Function.comp_def]

end Plain

/-! ## Looking up -/

/-- What is known of the series of a set. -/
def book (c : Collector T k) : AttributeSet → Option (Row T k) := c.rows.get?

end Collector

/-- Enter a recording into the row of a set. -/
def Row.enter (book : AttributeSet → Option (Row T k)) (set : AttributeSet) (r : Recording T) :
    AttributeSet → Option (Row T k) :=
  fun key => if (set == key) = true then some (((book key).getD {}).record r) else book key

namespace Collector

variable {c : Collector T k} {l : Ledger T}

/-- A recording enters the row that is looked up under its set, and no other. -/
theorem Plain.book_record (h : c.Plain l) {r : Recording T} (hset : (c.setOf r).IsProper)
    (hroom : c.redirects (c.setOf r) = false) :
    (c.record r).book = Row.enter c.book (c.setOf r) r := by
  funext key
  rw [book, h.rows_record hset hroom, Table.get?_upsert, Row.enter]
  by_cases hsame : (c.setOf r == key) = true
  · rw [if_pos hsame, if_pos hsame, c.rows.get?_congr hsame]
    rfl
  · rw [if_neg hsame, if_neg hsame]
    rfl

/-- A collection leaves of every row that is looked up what the row alone says. -/
theorem Plain.book_collect (h : c.Plain l) (start time : Time) :
    (c.collect start time).2.book = fun set => (c.book set).bind (Row.next c.config) := by
  funext set
  rw [book, h.rows_collect, h.distinct.unique_rows.get?_filterMap]
  rfl

end Collector

end Metering
