import Metering.Proofs.Attribute.Reordering
import Metering.Proofs.Collector.Observation
import Metering.Proofs.Collector.Rows
import Metering.Proofs.Tally.Merging

/-!
# Recordings in another order

Unless it is the latest value that counts, the order of the recordings of a cycle does not matter,
nor does that of the attributes of a recording (`order_within_cycles_does_not_matter`). Each
recording enters the row of its set, and such entries commute (`Row.enter_comm`); what a collection
reports and what it leaves is determined by the rows. This is so as long as no recording is
redirected to the overflow series: which sets find room depends on which come first. -/

namespace Metering

variable {T : Type} {k : Kind}

/-! ## Runs that differ in order -/

/-- The recordings agree but for the order of attributes with different keys, and for their times
and spans. -/
structure Recording.Reordered (r r' : Recording T) : Prop where
  value : r.value = r'.value
  attributes : Attribute.Reordered r.attributes r'.attributes

/-- The second recordings are the first ones in another order, each of them reordered. -/
def Recording.Shuffled (rs rs' : List (Recording T)) : Prop :=
  ∃ rs'' : List (Recording T), rs.Perm rs'' ∧ List.Forall₂ Recording.Reordered rs'' rs'

/-- Recordings and collections that differ only in the order of recordings between collections, and
of attributes in recordings. -/
inductive Command.Shuffled : List (Command T) → List (Command T) → Prop where
  | recordings {rs rs' : List (Recording T)} (h : Recording.Shuffled rs rs') :
    Shuffled (rs.map .record) (rs'.map .record)
  | collection {rs rs' : List (Recording T)} {commands commands' : List (Command T)}
    (h : Recording.Shuffled rs rs') (start time : Time) (hrest : Shuffled commands commands') :
    Shuffled (rs.map .record ++ .collect start time :: commands)
      (rs'.map .record ++ .collect start time :: commands')

/-- The metrics have the same points in some order, exemplars and times of measurements aside. -/
structure Metric.SamePoints (m m' : Metric T k) : Prop where
  stream : m.stream = m'.stream
  temporality : m.temporality = m'.temporality
  start : m.start = m'.start
  time : m.time = m'.time
  points : (m.points.map Point.bare).Perm (m'.points.map Point.bare)

variable [Quantity T]

namespace Collector

/-- No recording of a run is redirected to the overflow series. -/
def NeverRedirects (c : Collector T k) : List (Command T) → Prop
  | [] => True
  | command :: rest =>
    (∀ set ∈ command.wanted? c.config.filter, c.redirects set = false) ∧
      (c.perform command).2.NeverRedirects rest

instance decidableNeverRedirects :
    (c : Collector T k) → (commands : List (Command T)) → Decidable (c.NeverRedirects commands)
  | _, [] => inferInstanceAs (Decidable True)
  | c, command :: rest =>
    have : Decidable ((c.perform command).2.NeverRedirects rest) := decidableNeverRedirects _ rest
    inferInstanceAs (Decidable ((∀ set ∈ command.wanted? c.config.filter, c.redirects set = false) ∧
      (c.perform command).2.NeverRedirects rest))

/-- Nothing is redirected in either part of a run that redirects nothing. -/
theorem NeverRedirects.of_append {c : Collector T k} {commands more : List (Command T)}
    (h : c.NeverRedirects (commands ++ more)) :
    c.NeverRedirects commands ∧ (c.run commands).2.NeverRedirects more := by
  induction commands generalizing c with
  | nil => exact ⟨trivial, h⟩
  | cons command rest ih =>
    obtain ⟨hrest, hmore⟩ := ih h.2
    exact ⟨⟨h.1, hrest⟩, hmore⟩

end Collector

/-! ## Entering recordings -/

section

variable [Quantity.Ranked T] [Quantity.Exact T] [Quantity.Modular T] (hk : k ≠ .lastValue)

include hk

/-- Recordings enter the rows of their sets in either order. -/
theorem Row.enter_comm (book : AttributeSet → Option (Row T k)) (set set' : AttributeSet)
    (r r' : Recording T) :
    Row.enter (Row.enter book set r) set' r' = Row.enter (Row.enter book set' r') set r := by
  have hrecord (row : Row T k) : (row.record r).record r' = (row.record r').record r := by
    simp only [Row.record, Option.getD_some, k.record_comm hk _ r.value r'.value r.time r'.time]
  funext key
  by_cases hset : (set == key) = true <;> by_cases hset' : (set' == key) = true <;>
    simp [Row.enter, hset, hset', hrecord]

omit [Quantity.Ranked T] [Quantity.Exact T] [Quantity.Modular T] in
/-- A row takes in a recording by its value. -/
theorem Row.record_of_reordered {r r' : Recording T} (h : r.Reordered r') (row : Row T k) :
    row.record r = row.record r' := by
  rw [Row.record, Row.record, h.value, k.record_eq_of_ne hk _ _ r.time r'.time]

end

/-- Enter recordings into the rows of the sets that a filter finds for them. -/
def Row.enterAll (filter : KeyFilter) (book : AttributeSet → Option (Row T k))
    (rs : List (Recording T)) : AttributeSet → Option (Row T k) :=
  rs.foldl (fun book r => Row.enter book (filter.apply r.attributes) r) book

/-- Shuffled recordings make the same rows: they may trade places, and their attributes too. -/
theorem Row.enterAll_of_shuffled [Quantity.Ranked T] [Quantity.Exact T] [Quantity.Modular T]
    (hk : k ≠ .lastValue) (filter : KeyFilter) (book : AttributeSet → Option (Row T k))
    {rs rs' : List (Recording T)} (h : Recording.Shuffled rs rs') :
    Row.enterAll filter book rs = Row.enterAll filter book rs' := by
  obtain ⟨mid, hperm, hreordered⟩ := h
  have : RightCommutative fun (book : AttributeSet → Option (Row T k)) (r : Recording T) =>
      Row.enter book (filter.apply r.attributes) r :=
    ⟨fun book r r' => Row.enter_comm hk book _ _ r r'⟩
  -- first the recordings trade places, and then the attributes of each do
  refine (hperm.foldl_eq book).trans ?_
  clear hperm
  induction hreordered generalizing book with
  | nil => rfl
  | @cons r r' mid rs' hr _ ih =>
    have henter : Row.enter book (filter.apply r.attributes) r =
        Row.enter book (filter.apply r'.attributes) r' := by
      rw [filter.apply_of_reordered hr.attributes]
      funext key
      simp only [Row.enter, Row.record_of_reordered hk hr]
    rw [List.foldl_cons, henter]
    exact ih _

namespace Collector

variable {c c' : Collector T k} {l l' : Ledger T}

/-! ## One cycle -/

/-- Recordings none of which is redirected enter the rows, and change neither the settings nor the
time of the last collection. -/
theorem Plain.run_recordings (h : c.Plain l) {rs : List (Recording T)}
    (hreflexive : ∀ r ∈ rs, (Command.record r).IsReflexive c.config.filter)
    (hroom : c.NeverRedirects (rs.map .record)) :
    (c.run (rs.map .record)).2.book = Row.enterAll c.config.filter c.book rs ∧
      (c.run (rs.map .record)).2.lastCollection = c.lastCollection := by
  induction rs generalizing c l with
  | nil => exact ⟨rfl, rfl⟩
  | cons r rest ih =>
    have hr := hreflexive r List.mem_cons_self
    have hset : (c.setOf r).IsProper := ⟨c.digested_setOf r, hr⟩
    have hconfig : (c.record r).config = c.config := config_perform c (.record r)
    obtain ⟨hfirst, hrest⟩ := hroom
    obtain ⟨hbook, hlast⟩ := ih (h.record hr)
      (fun r' hr' => hconfig ▸ hreflexive r' (List.mem_cons_of_mem _ hr')) hrest
    refine ⟨hbook.trans ?_, hlast.trans (lastCollection_record h.running r)⟩
    -- the first recording enters its row, and the rest go on with what that leaves
    show Row.enterAll (c.record r).config.filter (c.record r).book rest = _
    rw [hconfig, h.book_record hset (hfirst _ rfl)]
    rfl

/-- Two collectors that know the same of all sets. -/
structure Matches (c c' : Collector T k) : Prop where
  stream : c.stream = c'.stream
  config : c.config = c'.config
  lastCollection : c.lastCollection = c'.lastCollection
  book : c.book = c'.book

namespace Matches

/-- Apart from their order, collectors that match have the same rows. -/
theorem perm_rows (hm : c.Matches c') (h : c.Plain l) (h' : c'.Plain l') :
    c.rows.entries.Perm c'.rows.entries := by
  have hproper {d : Collector T k} (hd : d.Proper) : ∀ key ∈ d.rows.keys, key.IsProper := by
    intro key hkey
    rw [keys_rows] at hkey
    obtain ⟨n, hn, rfl⟩ := List.mem_map.1 hkey
    exact hd n hn
  refine h.distinct.unique_rows.perm_of_get?_eq h'.distinct.unique_rows
    (fun key hkey => (hproper h.proper key hkey).self)
    (fun key hkey => (hproper h'.proper key hkey).self) (fun key hkey key' hkey' hsame => ?_)
    (congrFun hm.book)
  exact ((hproper h.proper key hkey).beq_iff (hproper h'.proper key' hkey').digested).1 hsame

/-- Collectors that match have equally many series. -/
theorem seriesCount (hm : c.Matches c') (h : c.Plain l) (h' : c'.Plain l') :
    c.seriesCount = c'.seriesCount := by
  rw [← c.size_rows, ← c'.size_rows]
  exact (hm.perm_rows h h').length_eq

/-- Collectors go on to match as long as their settings, last collections and rows do. -/
theorem of_settings (hm : c.Matches c') {d d' : Collector T k} (h : d.settings = c.settings)
    (h' : d'.settings = c'.settings) (hlast : d.lastCollection = d'.lastCollection)
    (hbook : d.book = d'.book) : d.Matches d' where
  stream := (congrArg Settings.stream h).trans (hm.stream.trans (congrArg Settings.stream h').symm)
  config := (congrArg Settings.config h).trans (hm.config.trans (congrArg Settings.config h').symm)
  lastCollection := hlast
  book := hbook

/-- A collection leaves collectors that match matching. -/
theorem collect (hm : c.Matches c') (h : c.Plain l) (h' : c'.Plain l') (start time : Time) :
    (c.collect start time).2.Matches (c'.collect start time).2 := by
  have hlast {d : Collector T k} (hd : d.Distinct) (hdetached : d.detached = []) :
      (d.collect start time).2.lastCollection = some time := by
    obtain ⟨live, retained, -, heq⟩ := collect_snd hd hdetached start time
    rw [heq]
  refine hm.of_settings (settings_collect c start time) (settings_collect c' start time) ?_ ?_
  · rw [hlast h.distinct h.detached, hlast h'.distinct h'.detached]
  · rw [h.book_collect, h'.book_collect, hm.book, hm.config]

/-- Collectors that match report the same points. -/
theorem reports (hm : c.Matches c') (h : c.Plain l) (h' : c'.Plain l') (start time : Time) :
    Option.Rel Metric.SamePoints (c.collect start time).1 (c'.collect start time).1 := by
  let bare (e : AttributeSet × k.Tally T) : Point T k := ⟨e.1.toList, k.read (k.untimed e.2), []⟩
  have hbare (accounts : List (AttributeSet × Accumulation T k)) :
      (accounts.map fun e => e.2.point e.1).map Point.bare =
        (accounts.map fun e => (e.1, e.2.tally)).map bare := by
    rw [List.map_map, List.map_map]
    exact List.map_congr_left fun e _ => e.2.bare_point e.1
  have htallies : ((c.accounts start time).map fun e => (e.1, e.2.tally)).Perm
      ((c'.accounts start time).map fun e => (e.1, e.2.tally)) := by
    rw [h.accounts_tallies, h'.accounts_tallies, hm.config]
    exact (hm.perm_rows h h').filterMap _
  have hlength : (c.accounts start time).length = (c'.accounts start time).length := by
    simpa using htallies.length_eq
  rw [collect_fst h.distinct h.detached, collect_fst h'.distinct h'.detached, report, report]
  -- either both have nothing to report, or both report
  by_cases hnone : c.accounts start time = []
  · have hnone' : c'.accounts start time = [] := by simpa [hnone] using hlength.symm
    rw [hnone, hnone']
    exact .none
  · have hnone' : c'.accounts start time ≠ [] := fun heq => hnone (by simpa [heq] using hlength)
    rw [if_neg (by simpa using hnone), if_neg (by simpa using hnone')]
    refine .some ⟨hm.stream, congrArg (·.temporality) hm.config, ?_, rfl, ?_⟩
    · simp only [Metric.ofSeries, hm.config, hm.lastCollection]
    · simp only [Metric.ofSeries, hbare]
      exact htallies.map bare

end Matches

/-! ## Over a run -/

section

variable [Quantity.Ranked T] [Quantity.Exact T] [Quantity.Modular T] (hk : k ≠ .lastValue)

omit [Quantity T] [Quantity.Ranked T] [Quantity.Exact T] [Quantity.Modular T] in
/-- The sets of shuffled recordings equal themselves if those of the recordings do. -/
theorem reflexive_of_shuffled {filter : KeyFilter} {rs rs' : List (Recording T)}
    (h : Recording.Shuffled rs rs')
    (hreflexive : ∀ r ∈ rs, (Command.record r).IsReflexive filter) :
    ∀ r ∈ rs', (Command.record r).IsReflexive filter := by
  obtain ⟨mid, hperm, hreordered⟩ := h
  have hmid : ∀ r ∈ mid, (Command.record r).IsReflexive filter := fun r hr =>
    hreflexive r (hperm.mem_iff.2 hr)
  clear hperm
  induction hreordered with
  | nil => exact nofun
  | @cons r r' mid rs' hr _ ih =>
    obtain ⟨hself, hrest⟩ := List.forall_mem_cons.1 hmid
    refine List.forall_mem_cons.2 ⟨?_, ih hrest⟩
    rw [Command.IsReflexive] at hself ⊢
    rwa [← filter.apply_of_reordered hr.attributes]

include hk

/-- Shuffled recordings keep collectors matching. -/
theorem Matches.recordings (hm : c.Matches c') (h : c.Plain l) (h' : c'.Plain l')
    {rs rs' : List (Recording T)} (hshuffled : Recording.Shuffled rs rs')
    (hreflexive : ∀ r ∈ rs, (Command.record r).IsReflexive c.config.filter)
    (hroom : c.NeverRedirects (rs.map .record)) (hroom' : c'.NeverRedirects (rs'.map .record)) :
    (c.run (rs.map .record)).2.Matches (c'.run (rs'.map .record)).2 := by
  have hreflexive' := reflexive_of_shuffled hshuffled hreflexive
  obtain ⟨hbook, hlast⟩ := h.run_recordings hreflexive hroom
  obtain ⟨hbook', hlast'⟩ := h'.run_recordings (hm.config ▸ hreflexive') hroom'
  refine hm.of_settings (c.settings_run (rs.map .record)) (c'.settings_run (rs'.map .record)) ?_ ?_
  · rw [hlast, hlast', hm.lastCollection]
  · rw [hbook, hbook', ← hm.config, ← hm.book]
    exact Row.enterAll_of_shuffled hk _ _ hshuffled

/-- Collectors that match go on to match over runs that differ only in order. -/
theorem Matches.run (hm : c.Matches c') (h : c.Plain l) (h' : c'.Plain l')
    {commands commands' : List (Command T)} (hshuffled : Command.Shuffled commands commands')
    (hreflexive : ∀ command ∈ commands, command.IsReflexive c.config.filter)
    (hroom : c.NeverRedirects commands) (hroom' : c'.NeverRedirects commands') :
    (c.run commands).2.Matches (c'.run commands').2 ∧
      ∃ l l', (c.run commands).2.Plain l ∧ (c'.run commands').2.Plain l' := by
  have hrecordings (rs : List (Recording T)) : ∀ command ∈ rs.map Command.record, command.IsPlain :=
    List.forall_mem_map.2 fun _ _ => trivial
  induction hshuffled generalizing c c' l l' with
  | @recordings rs rs' hrs =>
    have hreflexive := List.forall_mem_map.1 hreflexive
    have hreflexive' := reflexive_of_shuffled hrs hreflexive
    exact ⟨hm.recordings hk h h' hrs hreflexive hroom hroom', _, _,
      h.run (hrecordings rs) (List.forall_mem_map.2 hreflexive),
      h'.run (hrecordings rs') (List.forall_mem_map.2 (hm.config ▸ hreflexive'))⟩
  -- the recordings of one cycle, a collection, and then the rest
  | @collection rs rs' commands commands' hrs start time _ ih =>
    obtain ⟨hreflexive, hrest⟩ := List.forall_mem_append.1 hreflexive
    have hreflexive := List.forall_mem_map.1 hreflexive
    have hreflexive' := reflexive_of_shuffled hrs hreflexive
    obtain ⟨hroom, -, hmore⟩ := hroom.of_append
    obtain ⟨hroom', -, hmore'⟩ := hroom'.of_append
    have hfilled := h.run (hrecordings rs) (List.forall_mem_map.2 hreflexive)
    have hfilled' := h'.run (hrecordings rs') (List.forall_mem_map.2 (hm.config ▸ hreflexive'))
    have hmatch := hm.recordings hk h h' hrs hreflexive hroom hroom'
    have hconfig : ((c.run (rs.map .record)).2.collect start time).2.config = c.config :=
      (config_perform _ (.collect start time)).trans (config_run c _)
    rw [run_append, run_append]
    exact ih (hmatch.collect hfilled hfilled' start time)
      (hfilled.collect start time) (hfilled'.collect start time)
      (fun command hcommand => hconfig ▸ hrest command (List.mem_cons_of_mem _ hcommand))
      hmore hmore'

/-- **Order within cycles does not matter.** Take a sum, a summary or a histogram of words, and two
runs of recordings and collections that differ only in the order of the recordings between
collections and of the attributes with different keys in a recording, in sets that equal themselves.
If neither run redirects a recording to the overflow series, then a collection after them reports
the same points in both, exemplars aside, or nothing in both, and leaves as many series. -/
theorem order_within_cycles_does_not_matter (sampling sampling' : SamplingPlan T) (stream : Stream)
    (config : ReaderConfig) {commands commands' : List (Command T)}
    (hshuffled : Command.Shuffled commands commands')
    (hreflexive : ∀ command ∈ commands, command.IsReflexive config.filter)
    (hroom : (new sampling stream config : Collector T k).NeverRedirects commands)
    (hroom' : (new sampling' stream config : Collector T k).NeverRedirects commands')
    (start time : Time) :
    let c : Collector T k := ((new sampling stream config).run commands).2
    let c' : Collector T k := ((new sampling' stream config).run commands').2
    Option.Rel Metric.SamePoints (c.collect start time).1 (c'.collect start time).1 ∧
      (c.collect start time).2.seriesCount = (c'.collect start time).2.seriesCount := by
  intro c c'
  have hnew : (new sampling stream config : Collector T k).Matches (new sampling' stream config) :=
    ⟨rfl, rfl, rfl, rfl⟩
  obtain ⟨hmatch, l, l', hplain, hplain'⟩ := hnew.run hk (.new sampling stream config)
    (.new sampling' stream config) hshuffled hreflexive hroom hroom'
  refine ⟨hmatch.reports hplain hplain' start time, ?_⟩
  exact (hmatch.collect hplain hplain' start time).seriesCount
    (hplain.collect start time) (hplain'.collect start time)

end

/-- A recording with two attributes. -/
def wide : Recording Int64 := { value := 3, attributes := [⟨"a", .int 1⟩, ⟨"b", .int 2⟩] }

/-- The same with its attributes swapped. -/
def wideTurned : Recording Int64 := { value := 3, attributes := [⟨"b", .int 2⟩, ⟨"a", .int 1⟩] }

/-- A recording with one attribute. -/
def narrow : Recording Int64 := { value := -5, attributes := [⟨"c", .int 3⟩] }

def orderedCommands : List (Command Int64) :=
  [wide, narrow].map .record ++ .collect 0 1 :: [narrow, wide].map .record

def swappedCommands : List (Command Int64) :=
  [narrow, wideTurned].map .record ++ .collect 0 1 :: [wide, narrow].map .record

/-- The commands have their recordings in another order, and a list of attributes too. -/
theorem shuffled_swappedCommands : Command.Shuffled orderedCommands swappedCommands := by
  have hsame (r : Recording Int64) : r.Reordered r := ⟨rfl, .refl _⟩
  have hturned : wide.Reordered wideTurned := ⟨rfl, .of_perm (.swap ..) (by decide)⟩
  exact .collection ⟨_, .swap .., .cons (hsame narrow) (.cons hturned .nil)⟩ 0 1
    (.recordings ⟨_, .swap .., .cons (hsame wide) (.cons (hsame narrow) .nil)⟩)

/-- In another order the live series are opened in another order, and the report has the same
points. -/
theorem order_within_cycles_does_not_matter_swapped :
    let c : Collector Int64 .minMaxSumCount := ((new .none default .evicting).run orderedCommands).2
    let c' : Collector Int64 .minMaxSumCount :=
      ((new .none default .evicting).run swappedCommands).2
    (c.collect 0 2).2.seriesCount = 2 ∧ c.live.map (·.attributes.size) = [2, 1] ∧
      c'.live.map (·.attributes.size) = [1, 2] ∧
      Option.Rel Metric.SamePoints (c.collect 0 2).1 (c'.collect 0 2).1 ∧
      (c.collect 0 2).2.seriesCount = (c'.collect 0 2).2.seriesCount := by
  intro c c'
  have hreflexive : ∀ command ∈ orderedCommands,
      command.IsReflexive ReaderConfig.evicting.filter := by decide +kernel
  have hroom : (new .none default .evicting : Collector Int64 .minMaxSumCount).NeverRedirects
      orderedCommands := by decide +kernel
  have hroom' : (new .none default .evicting : Collector Int64 .minMaxSumCount).NeverRedirects
      swappedCommands := by decide +kernel
  have hkind : Kind.minMaxSumCount ≠ .lastValue := nofun
  have horder := order_within_cycles_does_not_matter hkind .none .none default .evicting
    shuffled_swappedCommands hreflexive hroom hroom' 0 2
  exact ⟨by decide +kernel, by decide +kernel, by decide +kernel, horder.1, horder.2⟩

end Collector

end Metering
