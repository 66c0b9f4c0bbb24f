import Metering.Table
import Mathlib.Data.List.Basic

/-!
# Tables, entry by entry

How the entries of a table change when values are entered one after another under keys that differ
from each other, and which entries are left when keys are erased.
-/

namespace Metering.Table

variable {κ α β σ : Type} [BEq κ]

/-! ## One value -/

/-- Entries of other keys stay in front. -/
theorem upsertEntries_append {key : κ} {f : Option α → α} {pre post : List (κ × α)}
    (h : ∀ e ∈ pre, (e.1 == key) = false) :
    upsertEntries key f (pre ++ post) = pre ++ upsertEntries key f post := by
  induction pre with
  | nil => rfl
  | cons e rest ih =>
    have he : ¬ (e.1 == key) = true := by simp [h e List.mem_cons_self]
    rw [List.cons_append, upsertEntries, if_neg he, ih fun e' he' => h e' (List.mem_cons_of_mem _ he')]
    rfl

/-- A new key is entered at the end. -/
theorem upsertEntries_of_new {key : κ} {f : Option α → α} {entries : List (κ × α)}
    (h : ∀ e ∈ entries, (e.1 == key) = false) :
    upsertEntries key f entries = entries ++ [(key, f none)] := by
  have happ : upsertEntries key f (entries ++ []) = entries ++ upsertEntries key f [] :=
    upsertEntries_append h
  rwa [List.append_nil] at happ

/-- The value of a known key is replaced where it stands, and the key stays as it was entered. -/
theorem upsertEntries_of_known {key known : κ} {f : Option α → α} {a : α} {pre post : List (κ × α)}
    (hpre : ∀ e ∈ pre, (e.1 == key) = false) (hkey : (known == key) = true) :
    upsertEntries key f (pre ++ (known, a) :: post) = pre ++ (known, f (some a)) :: post := by
  rw [upsertEntries_append hpre, upsertEntries, if_pos hkey]

/-! ## Many values -/

/-- Enter values one after another. -/
def upsertAll (f : β → Option α → α) (t : Table κ α) (values : List (κ × β)) : Table κ α :=
  values.foldl (fun t e => t.upsert e.1 (f e.2)) t

theorem upsertAll_append (f : β → Option α → α) (t : Table κ α) (values more : List (κ × β)) :
    t.upsertAll f (values ++ more) = (t.upsertAll f values).upsertAll f more :=
  List.foldl_append

/-- Entries whose keys differ from those of some rows, and an entry for the first of the rows: they
differ from the rest. -/
theorem ne_of_concat (key : σ → κ) {entries : List (κ × α)} {s : σ} {rest : List σ}
    (hentries : ∀ e ∈ entries, ∀ t ∈ s :: rest, (e.1 == key t) = false)
    (hs : ∀ t ∈ rest, (key s == key t) = false) (a : α) :
    ∀ e ∈ entries ++ [(key s, a)], ∀ t ∈ rest, (e.1 == key t) = false := by
  intro e he t ht
  rcases List.mem_append.1 he with he | he
  · exact hentries e he t (List.mem_cons_of_mem _ ht)
  · rw [List.mem_singleton.1 he]
    exact hs t ht

/-- Values under new keys are entered at the end, in their order. -/
theorem upsertAll_new {f : β → Option α → α} {entries : List (κ × α)} {values : List (κ × β)}
    (hnew : ∀ e ∈ entries, ∀ v ∈ values, (e.1 == v.1) = false)
    (hvalues : values.Pairwise fun v w => (v.1 == w.1) = false) :
    upsertAll f ⟨entries⟩ values = ⟨entries ++ values.map fun v => (v.1, f v.2 none)⟩ := by
  induction values generalizing entries with
  | nil => simp [upsertAll]
  | cons v rest ih =>
    obtain ⟨hv, hrest⟩ := List.pairwise_cons.1 hvalues
    have hentry : upsert ⟨entries⟩ v.1 (f v.2) = ⟨entries ++ [(v.1, f v.2 none)]⟩ := by
      rw [upsert, upsertEntries_of_new fun e he => hnew e he v List.mem_cons_self]
    have hnew' := ne_of_concat Prod.fst hnew hv (f v.2 none)
    rw [upsertAll, List.foldl_cons, hentry]
    exact (ih hnew' hrest).trans (by rw [List.append_assoc, List.map_cons, List.singleton_append])

/-- A table with one entry per row takes in values for some of the rows, given in the order of the
rows: each row keeps its place. -/
theorem upsertAll_rows (f : β → Option α → α) {key : σ → κ} (old : σ → α) (value : σ → Option β)
    {entries : List (κ × α)} {rows : List σ}
    (hentries : ∀ e ∈ entries, ∀ s ∈ rows, (e.1 == key s) = false)
    (hrows : rows.Pairwise fun s t => (key s == key t) = false)
    (hself : ∀ s ∈ rows, (key s == key s) = true) :
    upsertAll f ⟨entries ++ rows.map fun s => (key s, old s)⟩
        (rows.filterMap fun s => (value s).map (key s, ·)) =
      ⟨entries ++ rows.map fun s =>
        (key s, ((value s).map fun b => f b (some (old s))).getD (old s))⟩ := by
  induction rows generalizing entries with
  | nil => rfl
  | cons s rest ih =>
    obtain ⟨hs, hrest⟩ := List.pairwise_cons.1 hrows
    have hself' : ∀ t ∈ rest, (key t == key t) = true := fun t ht =>
      hself t (List.mem_cons_of_mem _ ht)
    -- whatever becomes of the first row, it joins the entries in front of the others
    have hstep (a : α) := ne_of_concat key hentries hs a
    -- the table before the first value, and the one that the rest is entered into
    have hold : (⟨entries ++ (s :: rest).map fun t => (key t, old t)⟩ : Table κ α) =
        ⟨(entries ++ [(key s, old s)]) ++ rest.map fun t => (key t, old t)⟩ := by
      rw [List.map_cons, List.append_cons]
    cases hvalue : value s with
    | none =>
      rw [List.filterMap_cons_none (by rw [hvalue]; rfl), hold, ih (hstep _) hrest hself']
      simp [hvalue]
    | some b =>
      have hentry : upsert ⟨entries ++ (s :: rest).map fun t => (key t, old t)⟩ (key s) (f b) =
          ⟨(entries ++ [(key s, f b (some (old s)))]) ++ rest.map fun t => (key t, old t)⟩ := by
        rw [upsert, List.map_cons, upsertEntries_of_known
          (fun e he => hentries e he s List.mem_cons_self) (hself s List.mem_cons_self),
          List.append_cons]
      rw [List.filterMap_cons_some (by rw [hvalue]; rfl), upsertAll, List.foldl_cons, hentry]
      refine (ih (hstep _) hrest hself').trans ?_
      simp [hvalue]

/-! ## Looking up -/

/-- In a table with one entry per row, the entry of a row is found under its key. -/
theorem get?_rows {key : σ → κ} {g : σ → α} {rows : List σ}
    (hrows : rows.Pairwise fun s t => (key s == key t) = false)
    (hself : ∀ s ∈ rows, (key s == key s) = true) {s : σ} (hs : s ∈ rows) :
    (⟨rows.map fun s => (key s, g s)⟩ : Table κ α).get? (key s) = some (g s) := by
  induction rows with
  | nil => cases hs
  | cons t rest ih =>
    obtain ⟨ht, hrest⟩ := List.pairwise_cons.1 hrows
    rcases List.mem_cons.1 hs with rfl | hs'
    · simp [get?, hself s List.mem_cons_self]
    · have hne : (key t == key s) = false := ht s hs'
      have ih := ih hrest (fun u hu => hself u (List.mem_cons_of_mem t hu)) hs'
      rw [get?] at ih
      rw [get?, List.map_cons, List.find?_cons_of_neg (by simp [hne]), ih]

theorem get?_eq_none {t : Table κ α} {key : κ} (h : ∀ other ∈ t.keys, (other == key) = false) :
    t.get? key = none := by
  rw [get?, List.find?_eq_none.2, Option.map_none]
  intro e he
  rw [h e.1 (List.mem_map_of_mem he)]
  exact Bool.false_ne_true

/-- Values for rows some of which have an entry, in the order of the rows, behind entries that are
done: each row gets its value, and takes its place there. -/
theorem upsertAll_waiting {f : β → Option α → α} {key : σ → κ} {b : σ → β}
    {done waiting : List (κ × α)} {rows : List σ} (hkeys : waiting.map (·.1) <+: rows.map key)
    (hdone : ∀ e ∈ done, ∀ s ∈ rows, (e.1 == key s) = false)
    (hrows : rows.Pairwise fun s t => (key s == key t) = false)
    (hself : ∀ s ∈ rows, (key s == key s) = true) :
    upsertAll f ⟨done ++ waiting⟩ (rows.map fun s => (key s, b s)) =
      ⟨done ++ rows.map fun s => (key s, f (b s) (get? ⟨waiting⟩ (key s)))⟩ := by
  induction rows generalizing done waiting with
  | nil =>
    have hwaiting : waiting = [] := by simpa using hkeys
    rw [hwaiting]
    rfl
  | cons s rest ih =>
    obtain ⟨hs, hrest⟩ := List.pairwise_cons.1 hrows
    have hself' : ∀ t ∈ rest, (key t == key t) = true := fun t ht =>
      hself t (List.mem_cons_of_mem _ ht)
    have hdone' (a : α) := ne_of_concat key hdone hs a
    cases waiting with
    | nil =>
      have hentry : upsert ⟨done ++ []⟩ (key s) (f (b s)) =
          ⟨(done ++ [(key s, f (b s) none)]) ++ []⟩ := by
        rw [upsert, List.append_nil, List.append_nil,
          upsertEntries_of_new fun e he => hdone e he s List.mem_cons_self]
      rw [List.map_cons, upsertAll, List.foldl_cons, hentry]
      have hnil : ([] : List (κ × α)).map (·.1) <+: rest.map key := List.nil_prefix
      refine (ih hnil (hdone' _) hrest hself').trans ?_
      rw [List.append_assoc]
      rfl
    | cons e waiting =>
      rw [List.map_cons, List.map_cons, List.cons_prefix_cons] at hkeys
      obtain ⟨he, hkeys⟩ := hkeys
      have hentry : upsert ⟨done ++ e :: waiting⟩ (key s) (f (b s)) =
          ⟨(done ++ [(key s, f (b s) (some e.2))]) ++ waiting⟩ := by
        rw [upsert, ← he, upsertEntries_of_known (a := e.2)
          (fun e' he' => he ▸ hdone e' he' s List.mem_cons_self)
          (he ▸ hself s List.mem_cons_self), List.append_cons]
      -- the first entry is that of the first row, and of no other
      have hfound : get? ⟨e :: waiting⟩ (key s) = some e.2 := by
        rw [get?, List.find?_cons_of_pos (by rw [he]; exact hself s List.mem_cons_self)]
        rfl
      have hpassed : ∀ t ∈ rest, get? ⟨e :: waiting⟩ (key t) = get? ⟨waiting⟩ (key t) := by
        intro t ht
        rw [get?, List.find?_cons_of_neg (by rw [he, hs t ht]; exact Bool.false_ne_true)]
        rfl
      rw [List.map_cons, upsertAll, List.foldl_cons, hentry]
      refine (ih hkeys (hdone' _) hrest hself').trans ?_
      rw [List.append_assoc, List.map_cons, hfound, List.singleton_append]
      refine congrArg (fun l => Table.mk (done ++ _ :: l)) (List.map_congr_left fun t ht => ?_)
      rw [hpassed t ht]

/-- A table whose keys are those of the first rows takes in one value for each row. -/
theorem upsertAll_of_prefix {f : β → Option α → α} {key : σ → κ} {b : σ → β} {t : Table κ α}
    {rows : List σ} (hkeys : t.keys <+: rows.map key)
    (hrows : rows.Pairwise fun s t => (key s == key t) = false)
    (hself : ∀ s ∈ rows, (key s == key s) = true) :
    t.upsertAll f (rows.map fun s => (key s, b s)) =
      ⟨rows.map fun s => (key s, f (b s) (t.get? (key s)))⟩ := by
  have hnone : ∀ e ∈ ([] : List (κ × α)), ∀ s ∈ rows, (e.1 == key s) = false :=
    fun e he => absurd he List.not_mem_nil
  exact upsertAll_waiting hkeys hnone hrows hself

/-! ## Erasing -/

/-- What is left after erasing keys are the entries whose key equals none of them. -/
theorem eraseAll_entries (t : Table κ α) (keys : List κ) :
    (t.eraseAll keys).entries = t.entries.filter fun e => !keys.any (e.1 == ·) := by
  induction keys generalizing t with
  | nil => simp [eraseAll]
  | cons key rest ih =>
    rw [eraseAll, List.foldl_cons]
    refine (ih (t.erase key)).trans ?_
    rw [erase, List.filter_filter]
    refine List.filter_congr fun e _ => ?_
    rw [List.any_cons, Bool.not_or, Bool.and_comm]

end Metering.Table
