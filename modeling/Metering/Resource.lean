import Metering.Attribute.Map

/-!
# Where metrics come from

A `Resource` describes the producer of the metrics, a `Scope` the library that records them and a
`Descriptor` the instrument. Together they are the `Stream` that every metric is stamped with;
aggregation never looks inside.
-/

namespace Metering

/-- The producer of the metrics: its attributes and the address of the schema they follow. -/
structure Resource where
  attributes : AttributeMap := .empty
  schemaUrl : Option String := none
deriving Inhabited

namespace Resource

def empty : Resource := {}

/-- Give attributes their values, in place of the ones they had. -/
def withAttributes (r : Resource) (attributes : List Attribute) : Resource :=
  { r with attributes := r.attributes.insertAll attributes }

/-- Set the schema address; an empty one stands for none. -/
def withSchemaUrl (r : Resource) (url : String) : Resource :=
  { r with schemaUrl := if url.isEmpty then none else some url }

/-- Resources are equal when their attributes and their schemas are. -/
instance : BEq Resource := ⟨fun a b => a.attributes == b.attributes && a.schemaUrl == b.schemaUrl⟩

end Resource

/-- The library or component that records. -/
structure Scope where
  name : String := ""
  version : Option String := none
  schemaUrl : Option String := none
  attributes : List Attribute := []
deriving Inhabited

/-- An instrument, as it is presented to readers. -/
structure Descriptor where
  name : String
  description : String := ""
  unit : String := ""
deriving DecidableEq, Inhabited

/-- The identity that every metric of one instrument is stamped with. -/
structure Stream where
  resource : Resource
  scope : Scope
  descriptor : Descriptor
deriving Inhabited

end Metering
