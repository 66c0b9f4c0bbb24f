import Metering.Boundaries

/-!
# Configuration errors

Recording and collecting never fail; only setting up can. A `ConfigError` is the cause, and
`message` its wording.
-/

namespace Metering

/-- Why an instrument, an aggregator or a reader could not be set up. -/
inductive ConfigError where
  /-- A histogram aggregator was given boundaries with a fault. -/
  | boundaries (fault : BoundaryFault)
  /-- A histogram aggregation was requested over boundaries with a fault. -/
  | aggregation (fault : BoundaryFault) (values : List Binary64)
  /-- A reader would track no series. -/
  | zeroCardinalityLimit
  /-- A reader would evict series that have not been idle. -/
  | zeroIdleCycles
  /-- A sample was to hold nothing. -/
  | emptySample
  /-- The named instrument has no reader. -/
  | noReader (instrument : String)
deriving DecidableEq

/-- What is wrong, for a person to read. -/
def ConfigError.message (e : ConfigError) : String :=
  "Config error " ++ match e with
    | boundaries fault => fault.message
    | aggregation fault values =>
      "aggregation: explicit bucket histogram: " ++ fault.message ++ ": [" ++
        ", ".intercalate (values.map (Binary64.numeral .pointed)) ++ "]"
    | zeroCardinalityLimit => "Cardinality limit must be greater than 0"
    | zeroIdleCycles => "Max idle cycles must be greater than 0"
    | emptySample => "exemplar reservoir size must be greater than zero"
    | noReader instrument => "instrument " ++ instrument ++ " has no reader to report to"

end Metering
