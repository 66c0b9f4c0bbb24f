import Metering.Attribute

/-!
# Attribute maps

An `AttributeMap` holds one value per key, in the order of the keys. Of several values given for a
key the last one stays.
-/

namespace Metering

/-! ## Lists in key order -/

/-- Put `a` into a list in key order, in place of an attribute of the same key if there is one. -/
def Attribute.put (a : Attribute) : List Attribute → List Attribute
  | [] => [a]
  | b :: rest =>
    if a.key < b.key then a :: b :: rest
    else if a.key = b.key then a :: rest
    else b :: a.put rest

/-- The keys strictly increase along the list. -/
def Attribute.KeysIncrease (l : List Attribute) : Prop := l.Pairwise (·.key < ·.key)

theorem Attribute.mem_put {a b : Attribute} {l : List Attribute} (h : b ∈ a.put l) :
    b = a ∨ b ∈ l := by
  induction l with
  | nil => simpa [put] using h
  | cons c rest ih =>
    rw [put] at h
    split at h
    · simpa using h
    · split at h
      · simp only [List.mem_cons] at h ⊢
        exact h.imp_right .inr
      · simp only [List.mem_cons] at h ⊢
        exact h.elim (fun h => .inr (.inl h)) fun h => (ih h).imp_right .inr

theorem Attribute.KeysIncrease.put {l : List Attribute} (h : KeysIncrease l) (a : Attribute) :
    KeysIncrease (a.put l) := by
  induction l with
  | nil => simp [KeysIncrease, Attribute.put]
  | cons c rest ih =>
    have hc := List.pairwise_cons.1 h
    rw [Attribute.put]
    split
    · next hlt =>
      exact List.pairwise_cons.2 ⟨fun d hd => (List.mem_cons.1 hd).elim (fun e => e ▸ hlt)
        fun hd => String.lt_trans hlt (hc.1 d hd), h⟩
    · split
      · next heq => exact List.pairwise_cons.2 ⟨fun d hd => heq ▸ hc.1 d hd, hc.2⟩
      · next hnlt hne =>
        refine List.pairwise_cons.2 ⟨fun d hd => ?_, ih hc.2⟩
        rcases Attribute.mem_put hd with rfl | hd
        · exact Decidable.byContradiction fun hcd =>
            hne (String.le_antisymm (String.not_lt.1 hcd) (String.not_lt.1 hnlt))
        · exact hc.1 d hd

/-! ## The map -/

/-- Attributes with distinct keys, in key order. -/
structure AttributeMap where
  toList : List Attribute
  increasing : Attribute.KeysIncrease toList

namespace AttributeMap

instance : Inhabited AttributeMap := ⟨[], List.Pairwise.nil⟩

/-- No attributes. -/
def empty : AttributeMap := default

/-- Give a key a value, in place of the one it had. -/
def insert (m : AttributeMap) (a : Attribute) : AttributeMap :=
  ⟨a.put m.toList, m.increasing.put a⟩

/-- Give keys their values one after another. -/
def insertAll (m : AttributeMap) (attributes : List Attribute) : AttributeMap :=
  attributes.foldl insert m

/-- The last value of every key of a list. -/
def ofList (attributes : List Attribute) : AttributeMap := empty.insertAll attributes

/-- The value of a key. -/
def get? (m : AttributeMap) (key : String) : Option Value :=
  (m.toList.find? (·.key == key)).map (·.value)

def contains (m : AttributeMap) (key : String) : Bool := m.toList.any (·.key == key)

def size (m : AttributeMap) : Nat := m.toList.length

/-- The attributes that satisfy `p`. -/
def filter (m : AttributeMap) (p : Attribute → Bool) : AttributeMap :=
  ⟨m.toList.filter p, m.increasing.filter p⟩

/-- Maps are equal when they have the same keys with equal values. -/
instance : BEq AttributeMap := ⟨fun a b => a.toList == b.toList⟩

end AttributeMap

end Metering
