/-!
# Tables

A `Table` holds one value per key, in the order in which the keys came. Keys are compared by `==`,
which need not be reflexive: a key that does not equal itself is never found again, so it is entered
anew each time and cannot be erased.
-/

namespace Metering

/-- Values by key, in the order in which the keys came. -/
structure Table (κ α : Type) where
  entries : List (κ × α) := []
deriving Inhabited

namespace Table

variable {κ α β : Type} [BEq κ]

def empty : Table κ α := {}

def size (t : Table κ α) : Nat := t.entries.length

def isEmpty (t : Table κ α) : Bool := t.entries.isEmpty

def keys (t : Table κ α) : List κ := t.entries.map (·.1)

/-- The value of a key. -/
def get? (t : Table κ α) (key : κ) : Option α := (t.entries.find? (·.1 == key)).map (·.2)

def contains (t : Table κ α) (key : κ) : Bool := t.entries.any (·.1 == key)

/-- Replace the first value in a list of entries whose key is `key`, or enter one at the end. -/
def upsertEntries (key : κ) (f : Option α → α) : List (κ × α) → List (κ × α)
  | [] => [(key, f none)]
  | e :: rest => if e.1 == key then (e.1, f (some e.2)) :: rest else e :: upsertEntries key f rest

/-- Give a key the value `f old`, where `old` is the value it has, if it has one. -/
def upsert (t : Table κ α) (key : κ) (f : Option α → α) : Table κ α :=
  ⟨upsertEntries key f t.entries⟩

/-- Give a key a value, in place of the one it has. -/
def insert (t : Table κ α) (key : κ) (value : α) : Table κ α := t.upsert key fun _ => value

def erase (t : Table κ α) (key : κ) : Table κ α := ⟨t.entries.filter fun e => !(e.1 == key)⟩

/-- Erase several keys. -/
def eraseAll (t : Table κ α) (keys : List κ) : Table κ α := keys.foldl erase t

/-- The entries for whose values `f` has an answer, with the answers. -/
def filterMap (t : Table κ α) (f : α → Option β) : Table κ β :=
  ⟨t.entries.filterMap fun e => (f e.2).map (e.1, ·)⟩

end Table

end Metering
