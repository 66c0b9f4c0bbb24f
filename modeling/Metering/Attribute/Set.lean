import Metering.Attribute.Map

/-!
# Attribute sets

An `AttributeSet` identifies a series. It is an attribute map with a digest of its content, and two
sets are the same only if their digests are. The set that was never built from attributes has a
blank digest, so it differs from the set built from none; and a set with a NaN inside a list of
floats is the same as no set, not even itself.
-/

namespace Metering

/-- An attribute map that identifies a series. Only an empty set can be without a digest. -/
structure AttributeSet extends AttributeMap where
  digested : Bool
  empty_of_undigested : digested = false → toList = []

namespace AttributeSet

/-- What a digest is computed from: the keys in order, each with its value's imprint. Digests are
taken as free of collisions, so they are equal exactly when this is. -/
abbrev Digest := List (String × Value.Imprint)

/-- The digest, or `none` for the blank one. -/
def digest (s : AttributeSet) : Option Digest :=
  if s.digested then some (s.toList.map fun a => (a.key, a.value.imprint)) else none

/-- The set that was never built from attributes. -/
def blank : AttributeSet := ⟨.empty, false, fun _ => rfl⟩

instance : Inhabited AttributeSet := ⟨blank⟩

/-- The set of a map's attributes, with its digest. -/
def ofMap (m : AttributeMap) : AttributeSet := ⟨m, true, nofun⟩

/-- The set of the last value of every key. -/
def ofList (attributes : List Attribute) : AttributeSet := ofMap (.ofList attributes)

/-- Keep the attributes that satisfy `p`; the digest is computed anew. -/
def retain (s : AttributeSet) (p : Attribute → Bool) : AttributeSet :=
  ofMap (s.toAttributeMap.filter p)

/-- Sets are the same when they have the same keys with the same members and the same digest. -/
protected def beq (a b : AttributeSet) : Bool :=
  a.toList.isEqv b.toList (fun x y => x.key == y.key && x.value.sameMember y.value) &&
    a.digest == b.digest

instance : BEq AttributeSet := ⟨AttributeSet.beq⟩

/-- The set of the series that takes the recordings beyond a collector's limit. -/
def overflow : AttributeSet := ofList [⟨"otel.metric.overflow", .bool true⟩]

end AttributeSet

/-- An allow-list of attribute keys; without one every key is allowed. -/
structure KeyFilter where
  allowed : Option (List String)
deriving DecidableEq, Inhabited

namespace KeyFilter

/-- The allow-list of some keys, or none. -/
def ofKeys (keys : Option (List String)) : KeyFilter := ⟨keys.map List.eraseDups⟩

/-- Whether two filters allow the same keys; one without an allow-list is like no other. -/
def sameKeys (f g : KeyFilter) : Bool :=
  match f.allowed, g.allowed with
  | none, none => true
  | some a, some b => a.all b.contains && b.all a.contains
  | _, _ => false

def allows (f : KeyFilter) (a : Attribute) : Bool :=
  match f.allowed with
  | none => true
  | some keys => keys.contains a.key

/-- The set that identifies the series of a recording. -/
def apply (f : KeyFilter) (attributes : List Attribute) : AttributeSet :=
  let set := AttributeSet.ofList attributes
  match f.allowed with
  | none => set
  | some _ => set.retain f.allows

end KeyFilter

end Metering
