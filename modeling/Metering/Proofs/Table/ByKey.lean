import Metering.Proofs.Table
import Mathlib.Data.List.Nodup
import Mathlib.Data.List.Pairwise

/-!
# Tables, key by key

What is found under a key after a table was changed under this key or another one. A table of which
no two keys are the same (`Unique`) is known by its keys and by what is found under them, but for the
order of its entries (`Unique.perm_entries`). Sameness of keys is symmetric and transitive and need
not be reflexive.
-/

namespace Metering.Table

variable {κ α β σ : Type} [BEq κ] [PartialEquivBEq κ]

/-! ## Looking up -/

/-- The same is found under keys that are the same. -/
theorem get?_congr (t : Table κ α) {key key' : κ} (h : (key == key') = true) :
    t.get? key = t.get? key' := by
  have hsame : (fun e : κ × α => e.1 == key) = fun e : κ × α => e.1 == key' :=
    funext fun e => BEq.congr_right h
  exact congrArg (fun p => (t.entries.find? p).map (·.2)) hsame

omit [PartialEquivBEq κ] in
/-- A value that is looked up stands under a key that is the same. -/
theorem mem_of_get? {t : Table κ α} {key : κ} {a : α} (h : t.get? key = some a) :
    ∃ known, (known, a) ∈ t.entries ∧ (known == key) = true := by
  obtain ⟨e, he, rfl⟩ := Option.map_eq_some_iff.1 h
  exact ⟨e.1, List.mem_of_find?_eq_some he, List.find?_some (p := fun e : κ × α => e.1 == key) he⟩

/-- A change under a key is found under the keys that are the same. -/
theorem get?_upsert (t : Table κ α) (key other : κ) (f : Option α → α) :
    (t.upsert key f).get? other =
      if (key == other) = true then some (f (t.get? key)) else t.get? other := by
  obtain ⟨entries⟩ := t
  simp only [get?, upsert]
  induction entries with
  | nil => by_cases h : (key == other) = true <;> simp [upsertEntries, h]
  | cons e rest ih =>
    by_cases he : (e.1 == key) = true
    · -- the entry of the key is the first one, and it is replaced
      have hother : (e.1 == other) = (key == other) := BEq.congr_left he
      by_cases h : (key == other) = true <;> simp [upsertEntries, he, hother, h]
    · by_cases h : (e.1 == other) = true
      · have hne : ¬ (key == other) = true := fun hkey => he (BEq.trans h (BEq.symm hkey))
        simp [upsertEntries, he, h, hne]
      · simpa [upsertEntries, he, h] using ih

omit [PartialEquivBEq κ] in
/-- A change under a key enters the key if it is a new one. -/
theorem keys_upsert (t : Table κ α) (key : κ) (f : Option α → α) :
    (t.upsert key f).keys = t.keys ∨
      (∀ known ∈ t.keys, (known == key) = false) ∧ (t.upsert key f).keys = t.keys ++ [key] := by
  obtain ⟨entries⟩ := t
  simp only [keys, upsert]
  induction entries with
  | nil => exact .inr ⟨fun _ hknown => absurd hknown List.not_mem_nil, rfl⟩
  | cons e rest ih =>
    -- the entry has the key and is changed, or the search goes on behind it
    by_cases he : (e.1 == key) = true
    · rw [upsertEntries, if_pos he]
      exact .inl rfl
    · rw [upsertEntries, if_neg he, List.map_cons, List.map_cons]
      rcases ih with hkeys | ⟨hnew, hkeys⟩
      · exact .inl (by rw [hkeys])
      · refine .inr ⟨fun known hknown => ?_, by rw [hkeys, List.cons_append]⟩
        rcases List.mem_cons.1 hknown with rfl | hknown
        · exact Bool.not_eq_true _ ▸ he
        · exact hnew known hknown

omit [PartialEquivBEq κ] in
/-- Entering a value adds no other key than its own. -/
theorem mem_keys_upsert {t : Table κ α} {key known : κ} {f : Option α → α}
    (h : known ∈ (t.upsert key f).keys) : known ∈ t.keys ∨ known = key := by
  rcases t.keys_upsert key f with hkeys | ⟨-, hkeys⟩
  · exact .inl (hkeys ▸ h)
  · rw [hkeys] at h
    simpa using h

/-- What is found under a key after several keys were erased. -/
theorem get?_eraseAll (t : Table κ α) (gone : List κ) (key : κ) :
    (t.eraseAll gone).get? key = if gone.any (key == ·) then none else t.get? key := by
  rw [get?, eraseAll_entries, List.find?_filter]
  by_cases hgone : gone.any (key == ·) = true
  -- an erased key: what is left under it was not erased, though it would have been
  · rw [if_pos hgone, List.find?_eq_none.2, Option.map_none]
    rintro e -
    obtain ⟨other, hother, hkey⟩ := List.any_eq_true.1 hgone
    simp only [decide_eq_true_eq, not_and, Bool.not_eq_true']
    exact fun hleft hsame => absurd (List.any_eq_true.2 ⟨other, hother, BEq.trans hsame hkey⟩)
      (Bool.not_eq_true _ ▸ hleft)
  · rw [if_neg hgone, get?]
    refine congrArg (fun p => (t.entries.find? p).map (·.2)) (funext fun e => ?_)
    by_cases hsame : (e.1 == key) = true
    · have hany : gone.any (e.1 == ·) = gone.any (key == ·) :=
        congrArg gone.any (funext fun other => BEq.congr_left hsame)
      simp [hsame, hany, hgone]
    · simp [hsame]

omit [PartialEquivBEq κ] in
/-- Erasing leaves the keys that are left in their order. -/
theorem keys_eraseAll (t : Table κ α) (gone : List κ) :
    (t.eraseAll gone).keys.Sublist t.keys := by
  rw [keys, eraseAll_entries]
  exact List.filter_sublist.map _

omit [PartialEquivBEq κ] in
/-- A key that is the same as itself is erased for good. -/
theorem not_mem_keys_eraseAll {t : Table κ α} {gone : List κ} {key : κ} (hself : (key == key) = true)
    (hgone : key ∈ gone) : key ∉ (t.eraseAll gone).keys := by
  intro hkey
  rw [keys, eraseAll_entries] at hkey
  obtain ⟨e, he, rfl⟩ := List.mem_map.1 hkey
  have hleft := (List.mem_filter.1 he).2
  rw [Bool.not_eq_true', List.any_eq_false] at hleft
  exact hleft e.1 hgone hself

omit [BEq κ] [PartialEquivBEq κ] in
/-- What is left of the entries has its keys in their order. -/
theorem keys_filterMap (t : Table κ α) (f : α → Option β) :
    (t.filterMap f).keys.Sublist t.keys := by
  simp only [keys, filterMap]
  induction t.entries with
  | nil => exact .slnil
  | cons e rest ih => cases hf : f e.2 <;> simp [hf, ih]

/-! ## Keys that differ -/

/-- No two keys of the table are the same. -/
def Unique (t : Table κ α) : Prop := t.keys.Pairwise fun a b => (a == b) = false

namespace Unique

variable {t : Table κ α}

omit [PartialEquivBEq κ] in
/-- Fewer keys are unique as well. -/
theorem of_sublist {t' : Table κ β} (h : t.Unique) (hkeys : t'.keys.Sublist t.keys) : t'.Unique :=
  h.sublist hkeys

omit [PartialEquivBEq κ] in
/-- Keys stay unique, since a value is entered under a key that is known if there is one. -/
theorem upsert (h : t.Unique) (key : κ) (f : Option α → α) : (t.upsert key f).Unique := by
  rw [Unique]
  rcases t.keys_upsert key f with hkeys | ⟨hnew, hkeys⟩
  · rw [hkeys]
    exact h
  · rw [hkeys]
    refine List.pairwise_append.2 ⟨h, List.pairwise_singleton _ _, fun known hknown other hother => ?_⟩
    rw [List.mem_singleton.1 hother]
    exact hnew known hknown

omit [PartialEquivBEq κ] in
/-- What stands under a key is found under it. -/
theorem get?_of_mem (h : t.Unique) {key : κ} {a : α} (hself : (key == key) = true)
    (hmem : (key, a) ∈ t.entries) : t.get? key = some a := by
  obtain ⟨entries⟩ := t
  have hkeys : entries.Pairwise fun e e' => (e.1 == e'.1) = false := List.pairwise_map.1 h
  simp only [get?]
  induction entries with
  | nil => cases hmem
  | cons e rest ih =>
    obtain ⟨he, hrest⟩ := List.pairwise_cons.1 hkeys
    rcases List.mem_cons.1 hmem with rfl | hmem
    · rw [List.find?_cons_of_pos (by exact hself), Option.map_some]
    · have hne : ¬ (e.1 == key) = true := Bool.not_eq_true _ ▸ he (key, a) hmem
      rw [List.find?_cons_of_neg (by exact hne)]
      exact ih (List.pairwise_map.2 hrest) hmem hrest

/-- Of a table whose values are mapped where possible, only the mapped ones are found. -/
theorem get?_filterMap (h : t.Unique) (f : α → Option β) (key : κ) :
    (t.filterMap f).get? key = (t.get? key).bind f := by
  obtain ⟨entries⟩ := t
  have hkeys : entries.Pairwise fun e e' => (e.1 == e'.1) = false := List.pairwise_map.1 h
  simp only [Table.filterMap, get?]
  induction entries with
  | nil => rfl
  | cons e rest ih =>
    obtain ⟨he, hrest⟩ := List.pairwise_cons.1 hkeys
    have ih := ih (List.pairwise_map.2 hrest) hrest
    by_cases hsame : (e.1 == key) = true
    · -- no later entry has the key, whatever becomes of this one
      have hnone : rest.find? (·.1 == key) = none :=
        List.find?_eq_none.2 fun e' he' hsame' =>
          absurd (BEq.trans hsame (BEq.symm hsame')) (Bool.not_eq_true _ ▸ he e' he')
      rw [hnone] at ih
      rw [List.find?_cons_of_pos (by exact hsame), Option.map_some, Option.bind_some]
      cases hf : f e.2 with
      | none => rwa [List.filterMap_cons_none (by rw [hf]; rfl)]
      | some b =>
        rw [List.filterMap_cons_some (by rw [hf]; rfl), List.find?_cons_of_pos (by exact hsame)]
        rfl
    · rw [List.find?_cons_of_neg (by exact hsame)]
      cases hf : f e.2 with
      | none => rwa [List.filterMap_cons_none (by rw [hf]; rfl)]
      | some b =>
        rwa [List.filterMap_cons_some (by rw [hf]; rfl), List.find?_cons_of_neg (by exact hsame)]

omit [PartialEquivBEq κ] in
/-- Keys stay unique when entries are changed or left out. -/
theorem filterMap (h : t.Unique) (f : α → Option β) : (t.filterMap f).Unique :=
  h.of_sublist (t.keys_filterMap f)

end Unique

/-- In a table with one entry per row, a change under the key of a row is one of that row. -/
theorem upsert_rows {key : σ → κ} {g : σ → α} {f : Option α → α}
    {rows : List σ} (hrows : rows.Pairwise fun s t => (key s == key t) = false) {s : σ}
    (hs : s ∈ rows) {other : κ} (hsame : (key s == other) = true) :
    (⟨rows.map fun t => (key t, g t)⟩ : Table κ α).upsert other f =
      ⟨rows.map fun t => (key t, if (key t == other) = true then f (some (g t)) else g t)⟩ := by
  obtain ⟨pre, post, rfl⟩ := List.append_of_mem hs
  obtain ⟨-, hpost, hpre⟩ := List.pairwise_append.1 hrows
  -- before and behind the row of the key, no row has it
  have hpre : ∀ t ∈ pre, (key t == other) = false := fun t ht =>
    (BEq.congr_right hsame).symm.trans (hpre t ht s List.mem_cons_self)
  have hpost : ∀ t ∈ post, (key t == other) = false := fun t ht => by
    rw [← BEq.congr_right hsame, BEq.comm]
    exact (List.pairwise_cons.1 hpost).1 t ht
  have hstay {l : List σ} (hl : ∀ t ∈ l, (key t == other) = false) :
      l.map (fun t => (key t, if (key t == other) = true then f (some (g t)) else g t)) =
        l.map fun t => (key t, g t) :=
    List.map_congr_left fun t ht => by rw [hl t ht, if_neg Bool.false_ne_true]
  rw [upsert, List.map_append, List.map_cons, List.map_append, List.map_cons, hstay hpre,
    hstay hpost, if_pos hsame, upsertEntries_of_known _ hsame]
  intro e he
  obtain ⟨t, ht, rfl⟩ := List.mem_map.1 he
  exact hpre t ht

/-! ## Many values -/

omit [PartialEquivBEq κ] in
/-- Entering several values adds no other keys than theirs. -/
theorem mem_keys_upsertAll {f : β → Option α → α} {t : Table κ α} {values : List (κ × β)} {key : κ}
    (h : key ∈ (t.upsertAll f values).keys) : key ∈ t.keys ∨ key ∈ values.map (·.1) := by
  induction values generalizing t with
  | nil => exact .inl h
  | cons v rest ih =>
    rcases ih (t := t.upsert v.1 (f v.2)) h with h | h
    · rcases mem_keys_upsert h with h | rfl
      · exact .inl h
      · exact .inr List.mem_cons_self
    · exact .inr (List.mem_cons_of_mem _ h)

omit [PartialEquivBEq κ] in
/-- Keys stay unique when several values are entered. -/
theorem Unique.upsertAll {t : Table κ α} (h : t.Unique) (f : β → Option α → α)
    (values : List (κ × β)) : (t.upsertAll f values).Unique := by
  induction values generalizing t with
  | nil => exact h
  | cons v rest ih => exact ih (h.upsert v.1 (f v.2))

/-- Each of several values under keys that differ from each other is found with what it was added
to. -/
theorem get?_upsertAll {f : β → Option α → α} (t : Table κ α) {values : List (κ × β)}
    (hvalues : (⟨values⟩ : Table κ β).Unique) (key : κ) :
    (t.upsertAll f values).get? key =
      match (⟨values⟩ : Table κ β).get? key with
      | none => t.get? key
      | some b => some (f b (t.get? key)) := by
  induction values generalizing t with
  | nil => rfl
  | cons v rest ih =>
    obtain ⟨hv, hrest⟩ := List.pairwise_cons.1 hvalues
    refine (ih (t.upsert v.1 (f v.2)) hrest).trans ?_
    rw [get?_upsert]
    by_cases hsame : (v.1 == key) = true
    · -- no later value has the key
      have hnone : (⟨rest⟩ : Table κ β).get? key = none := by
        refine get?_eq_none fun other hother => ?_
        rw [← BEq.congr_right hsame, BEq.comm]
        exact hv other hother
      have hfirst : (⟨v :: rest⟩ : Table κ β).get? key = some v.2 := by
        rw [get?, List.find?_cons_of_pos (by exact hsame), Option.map_some]
      rw [hnone, hfirst, if_pos hsame, t.get?_congr hsame]
    · have hlater : (⟨v :: rest⟩ : Table κ β).get? key = (⟨rest⟩ : Table κ β).get? key := by
        rw [get?, List.find?_cons_of_neg (by exact hsame), get?]
      rw [hlater, if_neg hsame]

/-- Apart from their order, the entries of a table are what is found under the keys of some rows, if
all its keys are among those. -/
theorem Unique.perm_entries {t : Table κ α} (h : t.Unique) {key : σ → κ} {rows : List σ}
    (hrows : rows.Pairwise fun s s' => (key s == key s') = false)
    (hself : ∀ s ∈ rows, (key s == key s) = true)
    (hkeys : ∀ known ∈ t.keys, ∃ s ∈ rows, key s = known) :
    (rows.filterMap fun s => (t.get? (key s)).map (key s, ·)).Perm t.entries := by
  have hrow : ∀ e ∈ t.entries, ∃ s ∈ rows, key s = e.1 := fun e he =>
    hkeys e.1 (List.mem_map_of_mem he)
  refine (List.perm_ext_iff_of_nodup ?_ ?_).2 fun e => ?_
  · refine List.pairwise_filterMap.2 (hrows.imp_of_mem fun {s s'} hs hs' hne b hb b' hb' heq => ?_)
    obtain ⟨a, -, rfl⟩ := Option.map_eq_some_iff.1 hb
    obtain ⟨a', -, rfl⟩ := Option.map_eq_some_iff.1 hb'
    rw [(Prod.mk.inj heq).1, hself s' hs'] at hne
    cases hne
  · refine (List.pairwise_map.1 h).imp_of_mem fun {e e'} he he' hne heq => ?_
    obtain ⟨s, hs, hse⟩ := hrow e he
    rw [← heq, ← hse, hself s hs] at hne
    cases hne
  · rw [List.mem_filterMap]
    constructor
    · rintro ⟨s, hs, hse⟩
      obtain ⟨a, ha, rfl⟩ := Option.map_eq_some_iff.1 hse
      obtain ⟨known, hmem, hsame⟩ := mem_of_get? ha
      obtain ⟨s', hs', rfl⟩ := hrow _ hmem
      -- the key that was entered is that of the row, since rows differ in their keys
      have hss : s' = s := by
        by_contra hne
        have : Std.Symm fun s s' : σ => (key s == key s') = false := ⟨fun _ _ => BEq.symm_false⟩
        have hdiff := hrows.forall hs' hs hne
        rw [show (key s' == key s) = true from hsame] at hdiff
        cases hdiff
      rwa [← hss]
    · intro he
      obtain ⟨s, hs, hse⟩ := hrow e he
      refine ⟨s, hs, ?_⟩
      have hfound : t.get? e.1 = some e.2 := h.get?_of_mem (hse ▸ hself s hs) he
      rw [hse, hfound, Option.map_some]

/-- Two tables under whose keys the same is found have the same entries, apart from their order, if
keys that are the same are equal. -/
theorem Unique.perm_of_get?_eq {t t' : Table κ α} (h : t.Unique) (h' : t'.Unique)
    (hself : ∀ key ∈ t.keys, (key == key) = true) (hself' : ∀ key ∈ t'.keys, (key == key) = true)
    (hequal : ∀ key ∈ t.keys, ∀ key' ∈ t'.keys, (key == key') = true → key = key')
    (hget : ∀ key, t.get? key = t'.get? key) : t.entries.Perm t'.entries := by
  -- keys that find the same values are the same, hence one, so both tables have equal keys
  have hkeys : ∀ key ∈ t'.keys, ∃ known ∈ t.keys, known = key := by
    intro key hkey
    obtain ⟨e, he, rfl⟩ := List.mem_map.1 hkey
    have hfound : t.get? e.1 = some e.2 := (hget e.1).trans (h'.get?_of_mem (hself' _ hkey) he)
    obtain ⟨known, hknown, hsame⟩ := mem_of_get? hfound
    have hmem : known ∈ t.keys := List.mem_map_of_mem (f := Prod.fst) hknown
    exact ⟨known, hmem, hequal known hmem e.1 hkey hsame⟩
  have hperm : (t.keys.filterMap fun key => (t.get? key).map (key, ·)).Perm t.entries :=
    h.perm_entries h hself fun key hkey => ⟨key, hkey, rfl⟩
  have hperm' : (t.keys.filterMap fun key => (t'.get? key).map (key, ·)).Perm t'.entries :=
    h'.perm_entries h hself hkeys
  simp only [← hget] at hperm'
  exact hperm.symm.trans hperm'

end Metering.Table
