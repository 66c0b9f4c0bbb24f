import Metering.Proofs.Attribute.Identity
import Metering.Proofs.Collector.Hands
import Metering.Proofs.Collector.Tracking

/-!
# No series is reported twice

The points of a report stand for live series, whose sets differ from each other. As long as no NaN
stands inside a list of floats, sets that differ have different lists of attributes, with one
exception: the blank set differs from the set that was built from no attributes, and both have none.
So a report has points with the same attributes only if somebody holds the series of the blank set,
and then only points without attributes.
-/

namespace Metering

variable {T : Type} {k : Kind} [Quantity T]

omit [Quantity T] in
/-- No NaN stands inside a list of floats among the attributes that a command looks for. -/
def Command.ListsNumbers : Command T → Prop
  | .record r => ∀ a ∈ r.attributes, a.value.ListsNumbers
  | .hold set => ∀ a ∈ set.toList, a.value.ListsNumbers
  | _ => True

omit [Quantity T] in
instance : (command : Command T) → Decidable command.ListsNumbers
  | .record r => inferInstanceAs (Decidable (∀ a ∈ r.attributes, a.value.ListsNumbers))
  | .hold set => inferInstanceAs (Decidable (∀ a ∈ set.toList, a.value.ListsNumbers))
  | .recordHeld _ _ | .drainHeld _ _ | .release _ | .collect _ _ | .shutdown _ _ =>
    inferInstanceAs (Decidable True)

omit [Quantity T] in
/-- Whatever the filter, such a command looks for a set that equals itself. -/
theorem Command.ListsNumbers.isReflexive {command : Command T} (h : command.ListsNumbers)
    (filter : KeyFilter) : command.IsReflexive filter := by
  cases command with
  | record r => exact AttributeSet.self_beq fun a ha => h a (KeyFilter.mem_apply ha)
  | hold set => exact AttributeSet.self_beq h
  | recordHeld id r => trivial
  | drainHeld id point => trivial
  | release id => trivial
  | collect start time => trivial
  | shutdown start time => trivial

namespace Collector

variable {c : Collector T k}

/-- The points of a report of which two have the same attributes are those of live series of which one
has a set without a digest. -/
theorem pairwise_reported (h : c.Distinct) (htracked : c.Tracked) {command : Command T}
    {m : Metric T k} (hm : (c.perform command).1 = .reported (some m)) :
    m.points.Pairwise fun p q => p.attributes = q.attributes →
      p.attributes = [] ∧ ∃ n ∈ c.names, n.2.digested = false := by
  obtain ⟨sets, hsets, hpoints⟩ := exists_sets_of_reported h (.inr htracked) hm
  have hnames {set : AttributeSet} (hset : set ∈ sets) : ∃ n ∈ c.names, n.2 = set := by
    obtain ⟨s, hs, rfl⟩ := List.mem_map.1 (hsets.subset hset)
    exact ⟨s.name, List.mem_map_of_mem hs, rfl⟩
  have hdiffer : sets.Pairwise fun a b => (a == b) = false :=
    (List.pairwise_map.2 h.live_sets).sublist hsets
  -- different sets have the same list only if it is empty and one of them has no digest
  have hlists : sets.Pairwise fun a b => a.toList = b.toList →
      a.toList = [] ∧ ∃ n ∈ c.names, n.2.digested = false := by
    refine hdiffer.imp_of_mem fun {a b} ha hb hne hlist => ?_
    obtain ⟨n, hn, rfl⟩ := hnames ha
    obtain ⟨n', hn', rfl⟩ := hnames hb
    obtain ⟨hempty, hblank⟩ := AttributeSet.toList_eq_nil_of_ne (htracked.reflexive n hn) hne hlist
    exact ⟨hempty, hblank.elim (fun hblank => ⟨n, hn, hblank⟩) fun hblank => ⟨n', hn', hblank⟩⟩
  have hattributes : (m.points.map (·.attributes)).Pairwise fun l l' => l = l' →
      l = [] ∧ ∃ n ∈ c.names, n.2.digested = false := by
    rw [hpoints]
    exact List.pairwise_map.2 hlists
  exact List.pairwise_map.1 hattributes

/-- **No series is reported twice.** Take any commands without a NaN inside a list of floats. In every
report among the replies, points with the same attributes have no attributes at all; and if nobody
holds the series of the blank set, no two points have the same attributes. -/
theorem reports_repeat_no_attributes (sampling : SamplingPlan T) (stream : Stream)
    (config : ReaderConfig) {commands : List (Command T)}
    (hnumbers : ∀ command ∈ commands, command.ListsNumbers) :
    let replies := ((new sampling stream config : Collector T k).run commands).1
    ∀ m, .reported (some m) ∈ replies →
      m.points.Pairwise (fun p q => p.attributes = q.attributes → p.attributes = []) ∧
        ((∀ set, .hold set ∈ commands → set ≠ .blank) →
          m.points.Pairwise fun p q => p.attributes ≠ q.attributes) := by
  intro replies m hm
  obtain ⟨before, command, after, rfl, hreply⟩ := mem_replies hm
  let c : Collector T k := ((new sampling stream config).run before).2
  have hwithin : c.WithinLimit := (WithinLimit.new sampling stream config).run before
  have htracked : c.Tracked :=
    (WithinLimit.new sampling stream config).tracked_run (.new sampling stream config)
      fun other hother => (hnumbers other (List.mem_append_left _ hother)).isReflexive config.filter
  have hpoints := pairwise_reported hwithin.toDistinct htracked hreply.symm
  refine ⟨hpoints.imp fun h hpq => (h hpq).1, fun hheld => ?_⟩
  -- every set that is looked for has a digest
  have hdigested : ∀ n ∈ c.names, n.2.digested = true := by
    refine forall_names_run (P := (·.digested = true)) (fun n hn => absurd hn List.not_mem_nil) rfl
      fun other hother set hset => ?_
    cases other with
    | record r =>
      cases hset
      exact KeyFilter.digested_apply _ _
    | hold held =>
      cases hset
      exact AttributeSet.digested_of_ne_blank (hheld _ (List.mem_append_left _ hother))
    | recordHeld id r => cases hset
    | drainHeld id point => cases hset
    | release id => cases hset
    | collect start time => cases hset
    | shutdown start time => cases hset
  refine hpoints.imp fun h hpq => ?_
  obtain ⟨-, n, hn, hblank⟩ := h hpq
  rw [hdigested n hn] at hblank
  cases hblank

/-- The attributes of the points of each report among replies. -/
def reportedAttributes (replies : List (Reply T k)) : List (List (List Attribute)) :=
  replies.filterMap fun
    | .reported (some m) => some (m.points.map (·.attributes))
    | _ => none

/-- A series is held under the set that was built from no attributes, and recorded into by those that
hold it and by those that do not. -/
def plainCommands : List (Command UInt64) :=
  [.hold (.ofList []), .recordHeld 0 { value := 1 }, .record { value := 2 },
    .record { value := 3, attributes := [⟨"a", .float .nan⟩] }, .collect 0 1]

theorem reports_repeat_no_attributes_plain :
    let replies := ((new .none default default : Collector UInt64 (.sum true)).run plainCommands).1
    (∀ command ∈ plainCommands, command.ListsNumbers) ∧
      reportedAttributes replies = [[[], [⟨"a", .float .nan⟩]]] ∧
      ∀ m, .reported (some m) ∈ replies →
        m.points.Pairwise fun p q => p.attributes ≠ q.attributes := by
  intro replies
  have hnumbers : ∀ command ∈ plainCommands, command.ListsNumbers := by decide +kernel
  refine ⟨hnumbers, by decide +kernel, fun m hm => ?_⟩
  refine (reports_repeat_no_attributes (k := .sum true) .none default default hnumbers m hm).2 ?_
  intro set hset hblank
  have hdigested : set.digested = true := by
    simp only [plainCommands, List.mem_cons, Command.hold.injEq, reduceCtorEq, List.not_mem_nil,
      or_false] at hset
    rw [hset]
    rfl
  rw [hblank] at hdigested
  cases hdigested

/-- A series is held under the blank set, and another one is opened for a recording without
attributes. -/
def blankCommands : List (Command UInt64) :=
  [.hold .blank, .recordHeld 0 { value := 1 }, .record { value := 2 }, .collect 0 1]

/-- The report has two points without attributes. -/
theorem blank_set_is_reported_beside_empty_set :
    let first : Collector UInt64 (.sum true) := new .none default default
    first.PermitsAll blankCommands ∧ (∀ command ∈ blankCommands, command.ListsNumbers) ∧
      reportedAttributes (first.run blankCommands).1 = [[[], []]] ∧
      ¬ ∀ lists ∈ reportedAttributes (first.run blankCommands).1, lists.Pairwise (· ≠ ·) := by
  decide +kernel

end Collector

end Metering
