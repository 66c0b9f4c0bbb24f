import Metering.Table
import Mathlib.Data.List.Forall2
import Mathlib.Data.Option.Basic

/-!
# Tables alike

Two tables with the same keys in the same order, whose values correspond entry by entry
(`Table.Alike`), go on to do so when they are changed in the same way. -/

namespace Metering

variable {α β γ δ : Type}

/-! ## Lists that correspond -/

/-- Tests that agree on elements that correspond find such elements. -/
theorem rel_find? {r : α → β → Prop} {p : α → Bool} {q : β → Bool}
    (hpq : ∀ {a b}, r a b → p a = q b) {l : List α} {m : List β} (h : List.Forall₂ r l m) :
    Option.Rel r (l.find? p) (m.find? q) := by
  induction h with
  | nil => exact .none
  | @cons a b l m hab _ ih =>
    cases hp : p a with
    | true =>
      rw [List.find?_cons_of_pos hp, List.find?_cons_of_pos (hpq hab ▸ hp)]
      exact .some hab
    | false =>
      rw [List.find?_cons_of_neg (by simp [hp]), List.find?_cons_of_neg (by simp [← hpq hab, hp])]
      exact ih

/-- Functions that agree on elements that correspond map lists to the same one. -/
theorem map_eq_of_rel {r : α → β → Prop} {f : α → γ} {g : β → γ}
    (hfg : ∀ {a b}, r a b → f a = g b) {l : List α} {m : List β} (h : List.Forall₂ r l m) :
    l.map f = m.map g := by
  induction h with
  | nil => rfl
  | cons hab _ ih => rw [List.map_cons, List.map_cons, hfg hab, ih]

/-- Values that correspond are both missing or both there. -/
theorem cases_of_rel {r : α → β → Prop} {o : Option α} {o' : Option β} (h : Option.Rel r o o') :
    (o = none ∧ o' = none) ∨ ∃ a b, o = some a ∧ o' = some b ∧ r a b := by
  cases h with
  | none => exact .inl ⟨rfl, rfl⟩
  | some hab => exact .inr ⟨_, _, rfl, rfl, hab⟩

/-- What is read off optional values that correspond is the same. -/
theorem option_map_eq_of_rel {r : α → β → Prop} {f : α → γ} {g : β → γ}
    (hfg : ∀ {a b}, r a b → f a = g b) {o : Option α} {o' : Option β} (h : Option.Rel r o o') :
    o.map f = o'.map g := by
  cases h with
  | none => rfl
  | some hab => exact congrArg some (hfg hab)

/-- Of optional values that correspond, both are there or neither. -/
theorem isSome_eq_of_rel {r : α → β → Prop} {o : Option α} {o' : Option β}
    (h : Option.Rel r o o') : o.isSome = o'.isSome := by
  cases h <;> rfl

namespace Table

variable {κ : Type}

/-- The tables have the same keys in the same order, and their values correspond. -/
def Alike (r : α → β → Prop) (t : Table κ α) (t' : Table κ β) : Prop :=
  List.Forall₂ (fun e e' => e.1 = e'.1 ∧ r e.2 e'.2) t.entries t'.entries

namespace Alike

variable {r : α → β → Prop} {t : Table κ α} {t' : Table κ β}

/-- Tables that are alike are empty together. -/
theorem isEmpty_eq (h : t.Alike r t') : t.isEmpty = t'.isEmpty := by
  have hlength : t.entries.length = t'.entries.length := List.Forall₂.length_eq h
  rw [isEmpty, isEmpty, Bool.eq_iff_iff, List.isEmpty_iff_length_eq_zero,
    List.isEmpty_iff_length_eq_zero, hlength]

/-- What is left of their entries is alike. -/
theorem filterMap {s : γ → δ → Prop} {f : α → Option γ} {g : β → Option δ} (h : t.Alike r t')
    (hfg : ∀ {a b}, r a b → Option.Rel s (f a) (g b)) :
    (t.filterMap f).Alike s (t'.filterMap g) := by
  refine List.rel_filterMap (fun e e' he => ?_) h
  obtain ⟨hkey, hvalue⟩ := he
  have hvalues := hfg hvalue
  rw [hkey]
  generalize f e.2 = o at hvalues
  generalize g e'.2 = o' at hvalues
  cases hvalues with
  | none => exact .none
  | some hs => exact .some ⟨rfl, hs⟩

variable [BEq κ]

/-- Entering alike values under one key keeps them alike. -/
theorem upsert {f : Option α → α} {g : Option β → β} (h : t.Alike r t') (key : κ)
    (hfg : ∀ {o o'}, Option.Rel r o o' → r (f o) (g o')) :
    (t.upsert key f).Alike r (t'.upsert key g) := by
  obtain ⟨entries⟩ := t
  obtain ⟨entries'⟩ := t'
  change List.Forall₂ _ entries entries' at h
  show List.Forall₂ _ (upsertEntries key f entries) (upsertEntries key g entries')
  induction h with
  | nil => exact .cons ⟨rfl, hfg .none⟩ .nil
  | @cons e e' rest rest' he hrest ih =>
    rw [upsertEntries, upsertEntries, he.1]
    split
    · exact .cons ⟨rfl, hfg (.some he.2)⟩ hrest
    · exact .cons he ih

/-- Erasing the same keys keeps them alike. -/
theorem eraseAll (h : t.Alike r t') (keys : List κ) :
    (t.eraseAll keys).Alike r (t'.eraseAll keys) := by
  induction keys generalizing t t' with
  | nil => exact h
  | cons key rest ih =>
    refine ih (List.rel_filter (fun e e' he => ?_) h)
    show (!(e.1 == key)) = true ↔ (!(e'.1 == key)) = true
    rw [he.1]

end Alike

end Table

end Metering
