import Metering.Proofs.Collector.Positions
import Metering.Proofs.Collector.Rows
import Metering.Proofs.Collector.Shutdown

/-!
# Windows of reports

Every collection that is performed sets the time of the last one to its own end, whether or not it finds
anything, and nothing else sets it (`Collector.lastCollection_perform`). A second shutdown performs none.
A delta report starts at that time, so the windows of collections that follow each other join
(`Collector.windows_join`). -/

namespace Metering

variable {T : Type} {k : Kind}

/-! ## Collections that are asked for -/

/-- What a collection is called with: when reporting started, and when the collection ends. -/
structure Request where
  start : Time
  time : Time
deriving DecidableEq

namespace Command

/-- The collection that a command performs, if it performs one. A shutdown does unless there was one
before it. -/
def request? (shutDown : Bool) : Command T → Option Request
  | .collect start time => some ⟨start, time⟩
  | .shutdown start time => if shutDown then none else some ⟨start, time⟩
  | .record _ | .hold _ | .recordHeld _ _ | .drainHeld _ _ | .release _ => none

/-- The collections that commands perform, one after another. -/
def requests (shutDown : Bool) : List (Command T) → List Request
  | [] => []
  | command :: rest =>
    (command.request? shutDown).toList ++ requests (shutDown || decide command.IsShutdown) rest

/-- Only collections and shutdowns ask for a report, and say when. -/
theorem eq_of_request? {shutDown : Bool} {command : Command T} {request : Request}
    (h : command.request? shutDown = some request) :
    command = .collect request.start request.time ∨
      command = .shutdown request.start request.time := by
  cases command with
  | collect start time =>
    cases h
    exact .inl rfl
  | shutdown start time =>
    rw [request?] at h
    split at h
    · cases h
    · cases h
      exact .inr rfl
  | record r => cases h
  | hold set => cases h
  | recordHeld id r => cases h
  | drainHeld id point => cases h
  | release id => cases h

end Command

/-- A metric covers the window of the request at an index: it ends when its collection does, and it
starts when reporting started or, if it is a delta and not the first, when the collection before it
ended. -/
structure Metric.Covers (m : Metric T k) (requests : List Request) (n : Nat) : Prop where
  time : requests[n]?.map (·.time) = some m.time
  start_of_cumulative : m.temporality = .cumulative → requests[n]?.map (·.start) = some m.start
  start_of_first : n = 0 → requests[n]?.map (·.start) = some m.start
  start_of_delta : m.temporality = .delta →
    ∀ i, n = i + 1 → requests[i]?.map (·.time) = some m.start

/-- A metric covers the window of a request if it starts where the last one of the earlier requests
ended. -/
theorem Metric.covers_of_startFor {m : Metric T k} {earlier later : List Request}
    {request : Request} (htime : m.time = request.time)
    (hstart : m.start = Window.startFor
      ⟨request.start, (earlier.getLast?.map (·.time)).getD request.start, request.time⟩
      m.temporality) :
    m.Covers (earlier ++ request :: later) earlier.length := by
  have hat : (earlier ++ request :: later)[earlier.length]? = some request := by simp
  -- `earlier.length` is the place of the request; for a delta report, `i` is that of the one before
  -- it
  refine ⟨?_, fun hcumulative => ?_, fun hfirst => ?_, fun hdelta i hi => ?_⟩
  · rw [hat, htime, Option.map_some]
  · rw [hat, hstart, hcumulative, Option.map_some]
    rfl
  · rw [List.length_eq_zero_iff.1 hfirst] at hstart
    rw [hat, hstart, Option.map_some]
    cases m.temporality <;> rfl
  · have hlt : i < earlier.length := by omega
    have hlast : earlier.getLast? = some earlier[i] := by
      rw [List.getLast?_eq_getElem?, hi, Nat.add_sub_cancel, List.getElem?_eq_getElem hlt]
    rw [hstart, hdelta, hlast, List.getElem?_append_left hlt, List.getElem?_eq_getElem hlt]
    rfl

variable [Quantity T]

namespace Collector

/-! ## One collection -/

/-- The window of a collection under way and the time of the last collection. -/
def timing (s : Cycle T k × Collector T k) : Window × Option Time :=
  (s.1.window, s.2.lastCollection)

/-- A drain does not touch the window. -/
theorem timing_drainNext (s : Cycle T k × Collector T k) :
    timing (s.2.drainNext s.1) = timing s := by
  unfold drainNext
  split
  · rfl
  · unfold drainSeries
    split
    · rfl
    · dsimp only
      split <;> rfl

theorem timing_evict (s : Cycle T k × Collector T k) (set : AttributeSet) :
    timing (s.2.evict s.1 set) = timing s := by
  unfold evict
  split
  · rfl
  · dsimp only
    split
    · rfl
    · split <;> rfl

omit [Quantity T] in
/-- Steps that keep the timing keep it when they follow one another. -/
theorem timing_foldl {α : Type} {f : Cycle T k × Collector T k → α → Cycle T k × Collector T k}
    (hf : ∀ s a, timing (f s a) = timing s) (l : List α) (s : Cycle T k × Collector T k) :
    timing (l.foldl f s) = timing s := by
  induction l generalizing s with
  | nil => rfl
  | cons a rest ih => exact (ih (f s a)).trans (hf s a)

theorem timing_evictIdle (s : Cycle T k × Collector T k) :
    timing (s.2.evictIdle s.1) = timing s := by
  unfold evictIdle
  split
  · rfl
  · exact timing_foldl (fun s set => timing_evict s set) _ s

/-- A collection ends with what its drains and evictions leave, and these change neither its window
nor its end. -/
theorem exists_finish (c : Collector T k) (start time : Time) :
    ∃ s : Cycle T k × Collector T k, c.collect start time = s.2.finish s.1 ∧
      timing s = (⟨start, c.lastCollection.getD start, time⟩, some time) := by
  let begun := c.beginCycle start time
  let drained := begun.2.drainPending begun.1
  have hdrain : timing drained = timing begun :=
    timing_foldl (fun s _ => timing_drainNext s) begun.1.pending begun
  exact ⟨drained.2.evictIdle drained.1, rfl, (timing_evictIdle drained).trans hdrain⟩

/-- A collection remembers its time. -/
theorem lastCollection_collect (c : Collector T k) (start time : Time) :
    (c.collect start time).2.lastCollection = some time := by
  obtain ⟨s, hs, htiming⟩ := c.exists_finish start time
  rw [hs, finish_snd]
  exact congrArg Prod.snd htiming

/-- A report of a collection has its window. -/
theorem window_of_collect {c : Collector T k} {start time : Time} {m : Metric T k}
    (hm : (c.collect start time).1 = some m) :
    m.temporality = c.config.temporality ∧ m.time = time ∧
      m.start = Window.startFor ⟨start, c.lastCollection.getD start, time⟩ m.temporality := by
  have hframe := c.frame_collect start time
  obtain ⟨s, hs, htiming⟩ := c.exists_finish start time
  have hconfig : s.2.config = c.config := by
    rw [hs] at hframe
    exact congrArg (·.config) ((s.2.frame_finish s.1).symm.trans hframe)
  have hwindow : s.1.window = ⟨start, c.lastCollection.getD start, time⟩ :=
    congrArg Prod.fst htiming
  rw [hs, finish_fst] at hm
  split at hm
  · cases hm
  · cases hm
    rw [← hconfig, hwindow]
    exact ⟨rfl, rfl, rfl⟩

/-! ## One command -/

/-- Only a shutdown shuts a collector down. -/
theorem shutDown_perform (c : Collector T k) (command : Command T) :
    (c.perform command).2.shutDown = (c.shutDown || decide command.IsShutdown) := by
  cases command with
  | record r => exact (c.shutDown_record r).trans (Bool.or_false _).symm
  | hold set => exact (c.shutDown_acquire set).trans (Bool.or_false _).symm
  | recordHeld id r => exact (Bool.or_false _).symm
  | drainHeld id point => exact (Bool.or_false _).symm
  | release id => exact (Bool.or_false _).symm
  | collect start time =>
    exact (congrArg Frame.shutDown (c.frame_collect start time)).trans (Bool.or_false _).symm
  | shutdown start time =>
    refine Eq.trans ?_ (Bool.or_true _).symm
    cases hshut : c.shutDown with
    | true => rwa [show (c.perform (.shutdown start time)).2 = c by simp [perform, shutdown, hshut]]
    | false => exact (closed_shutdown hshut start time).shutDown

/-- A command sets the time of the last collection to the end of the one that it performs. -/
theorem lastCollection_perform (c : Collector T k) (command : Command T) :
    (c.perform command).2.lastCollection =
      ((command.request? c.shutDown).map (·.time)).or c.lastCollection := by
  cases command with
  | record r =>
    show (c.record r).lastCollection = c.lastCollection
    -- only collections that are carried out are remembered, so not those after a shutdown
    cases hshut : c.shutDown with
    | true => rw [record, hshut, if_pos rfl]
    | false => exact lastCollection_record hshut r
  | hold set => exact c.lastCollection_acquire set
  | recordHeld id r => rfl
  | drainHeld id point => rfl
  | release id => rfl
  | collect start time => exact c.lastCollection_collect start time
  | shutdown start time =>
    show (c.shutdown start time).2.lastCollection = _
    cases hshut : c.shutDown with
    | true => simp [shutdown, hshut, Command.request?]
    | false =>
      rw [shutdown, hshut]
      exact lastCollection_collect { c with shutDown := true } start time

/-- A command that answers with a report performs a collection, and the report has its window. -/
theorem window_of_perform {c : Collector T k} {command : Command T} {m : Metric T k}
    (hm : (c.perform command).1 = .reported (some m)) :
    ∃ request, command.request? c.shutDown = some request ∧
      m.temporality = c.config.temporality ∧ m.time = request.time ∧
      m.start = Window.startFor
        ⟨request.start, c.lastCollection.getD request.start, request.time⟩ m.temporality := by
  cases command with
  | record r => cases hm
  | hold set => cases hm
  | recordHeld id r => cases hm
  | drainHeld id point => cases hm
  | release id => cases hm
  | collect start time => exact ⟨⟨start, time⟩, rfl, window_of_collect (Reply.reported.inj hm)⟩
  | shutdown start time =>
    have hm : (c.shutdown start time).1 = some m := Reply.reported.inj hm
    cases hshut : c.shutDown with
    | true => simp [shutdown, hshut] at hm
    | false =>
      rw [shutdown, hshut] at hm
      exact ⟨⟨start, time⟩, rfl, window_of_collect (c := { c with shutDown := true }) hm⟩

/-! ## Runs -/

/-- The reply to a collection in a run is what a collection yields there. -/
theorem reply_of_collect (c : Collector T k) {commands : List (Command T)} {q : Nat}
    {start time : Time} (hcommand : commands[q]? = some (.collect start time)) :
    (c.run commands).1[q]? =
      some (.reported ((c.run (commands.take q)).2.collect start time).1) := by
  rw [getElem?_replies, hcommand]
  rfl

/-- The collections that commands perform, before and after some point of a run. -/
theorem requests_append (c : Collector T k) (before after : List (Command T)) :
    Command.requests c.shutDown (before ++ after) =
      Command.requests c.shutDown before ++ Command.requests (c.run before).2.shutDown after := by
  induction before generalizing c with
  | nil => rfl
  | cons command rest ih =>
    have hrest := ih (c.perform command).2
    rw [shutDown_perform] at hrest
    rw [List.cons_append, Command.requests, Command.requests, hrest, List.append_assoc]
    rfl

/-- The time of the last collection is the end of the last one that was performed. -/
theorem lastCollection_run (c : Collector T k) (commands : List (Command T)) :
    (c.run commands).2.lastCollection =
      ((Command.requests c.shutDown commands).getLast?.map (·.time)).or c.lastCollection := by
  induction commands generalizing c with
  | nil => rfl
  | cons command rest ih =>
    have hrest := ih (c.perform command).2
    rw [shutDown_perform, lastCollection_perform] at hrest
    refine hrest.trans ?_
    rw [Command.requests, List.getLast?_append, Option.map_or, ← Option.or_assoc]
    cases command.request? c.shutDown <;> rfl

/-- The request of the command at a position comes after those of the commands before it. -/
theorem exists_requests_eq (c : Collector T k) {commands : List (Command T)} {q : Nat}
    {command : Command T} (hcommand : commands[q]? = some command) {request : Request}
    (hrequest : command.request? (c.run (commands.take q)).2.shutDown = some request) :
    ∃ later, Command.requests c.shutDown commands =
      Command.requests c.shutDown (commands.take q) ++ request :: later := by
  have happend := c.requests_append (commands.take q) (command :: commands.drop (q + 1))
  rw [← eq_take_append_cons_drop hcommand, Command.requests, hrequest] at happend
  exact ⟨_, happend⟩

/-- **Windows join.** Take a new collector, any commands, and a report among the replies to them. It
belongs to a collection and covers its window: it ends when the collection does, and it starts when
reporting started or else, for a delta collector and any collection but the first, when the collection
before it ended, which need not have reported anything. So of two delta reports of collections that
follow each other, the second one starts where the first one ends. -/
theorem windows_join (sampling : SamplingPlan T) (stream : Stream) (config : ReaderConfig)
    (commands : List (Command T)) :
    let replies := ((new sampling stream config : Collector T k).run commands).1
    let requests := Command.requests false commands
    let index (q : Nat) := (Command.requests false (commands.take q)).length
    (∀ q m, replies[q]? = some (.reported (some m)) →
      m.temporality = config.temporality ∧ m.Covers requests (index q) ∧
        ∃ request, requests[index q]? = some request ∧
          (commands[q]? = some (.collect request.start request.time) ∨
            commands[q]? = some (.shutdown request.start request.time))) ∧
    (config.temporality = .delta →
      ∀ q q' m m', replies[q]? = some (.reported (some m)) →
        replies[q']? = some (.reported (some m')) → index q' = index q + 1 →
          m'.start = m.time) := by
  intro replies requests index
  have hcovers (q : Nat) (m : Metric T k) (hm : replies[q]? = some (.reported (some m))) :
      m.temporality = config.temporality ∧ m.Covers requests (index q) ∧
        ∃ request, requests[index q]? = some request ∧
          (commands[q]? = some (.collect request.start request.time) ∨
            commands[q]? = some (.shutdown request.start request.time)) := by
    let first : Collector T k := new sampling stream config
    rw [getElem?_replies, Option.map_eq_some_iff] at hm
    obtain ⟨command, hcommand, hm⟩ := hm
    obtain ⟨request, hrequest, htemporality, htime, hstart⟩ := window_of_perform hm
    obtain ⟨later, hrequests⟩ := first.exists_requests_eq hcommand hrequest
    have hlast := first.lastCollection_run (commands.take q)
    -- a new collector remembers nothing, so the last request before `q` is all that counts
    rw [show first.lastCollection = none from rfl, Option.or_none] at hlast
    rw [show (first.run (commands.take q)).2.lastCollection = _ from hlast] at hstart
    have hsplit : requests = Command.requests false (commands.take q) ++ request :: later :=
      hrequests
    refine ⟨htemporality.trans (congrArg _ (config_run first _)), ?_, request, ?_, ?_⟩
    · rw [hsplit]
      exact Metric.covers_of_startFor htime hstart
    · rw [hsplit]
      simp [index]
    · rw [hcommand, Option.some_inj, Option.some_inj]
      exact Command.eq_of_request? hrequest
  refine ⟨hcovers, fun hdelta q q' m m' hm hm' hnext => ?_⟩
  have hend := (hcovers q m hm).2.1.time
  obtain ⟨htemporality, hcovered, -⟩ := hcovers q' m' hm'
  -- the report of `q'` starts where the request before its own ended, which is that of `q`
  have hstart := hcovered.start_of_delta (htemporality.trans hdelta) (index q) hnext
  exact Option.some.inj (hstart.symm.trans hend)

/-- Reports are deltas. -/
def deltaReader : ReaderConfig := { (default : ReaderConfig) with temporality := .delta }

/-- The first collection finds nothing, and neither does the shutdown after the second one. A second
shutdown is no collection. A series that is opened after that is reported twice. -/
def emptyCycles : List (Command UInt64) :=
  [.collect 5 10, .record { value := 1 }, .collect 5 20, .shutdown 5 30, .shutdown 5 40,
    .hold (.ofList []), .recordHeld 1 { value := 2 }, .collect 6 50,
    .recordHeld 1 { value := 3 }, .collect 6 60]

/-- The starts and the ends of the reports among replies. -/
def reportedWindows (replies : List (Reply T k)) : List (Time × Time) :=
  replies.filterMap fun
    | .reported (some m) => some (m.start, m.time)
    | _ => none

/-- Reports of a delta collector join over the cycles in between that had nothing to report. -/
theorem windows_join_over_empty_cycles :
    let first : Collector UInt64 (.sum true) := new .none default deltaReader
    let requests := Command.requests false emptyCycles
    reportedWindows (first.run emptyCycles).1 = [(10, 20), (30, 50), (50, 60)] ∧
      requests.map (·.time) = [10, 20, 30, 50, 60] ∧ deltaReader.temporality = .delta ∧
      ∃ m m', (first.run emptyCycles).1[7]? = some (.reported (some m)) ∧
        (first.run emptyCycles).1[9]? = some (.reported (some m')) ∧
        m.Covers requests 3 ∧ m'.Covers requests 4 ∧ m'.start = m.time := by
  intro first requests
  obtain ⟨m, hm⟩ : ∃ m, ((first.run (emptyCycles.take 7)).2.collect 6 50).1 = some m :=
    Option.isSome_iff_exists.1 (by decide +kernel)
  obtain ⟨m', hm'⟩ : ∃ m, ((first.run (emptyCycles.take 9)).2.collect 6 60).1 = some m :=
    Option.isSome_iff_exists.1 (by decide +kernel)
  have hreply : (first.run emptyCycles).1[7]? = some (.reported (some m)) :=
    hm ▸ first.reply_of_collect rfl
  have hreply' : (first.run emptyCycles).1[9]? = some (.reported (some m')) :=
    hm' ▸ first.reply_of_collect rfl
  obtain ⟨hcovers, hjoin⟩ := windows_join (k := .sum true) .none default deltaReader emptyCycles
  exact ⟨by decide +kernel, by decide, rfl, m, m', hreply, hreply', (hcovers 7 m hreply).2.1,
    (hcovers 9 m' hreply').2.1, hjoin rfl 7 9 m m' hreply hreply' rfl⟩

end Collector

end Metering
