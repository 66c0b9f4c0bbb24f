import Metering.Attribute.Set
import Metering.ConfigError
import Metering.Window

/-!
# Reader configuration

How one reader wants the data of an instrument collected. A `ReaderConfig` always makes sense;
`ReaderOptions` are what was asked for.
-/

namespace Metering

/-- How one reader wants data collected. -/
structure ReaderConfig where
  temporality : Temporality := .cumulative
  /-- How many series are tracked, the overflow series aside. -/
  limit : Nat := 2000
  /-- After how many cycles without recordings a series is evicted; `none` for never. -/
  maxIdle : Option Nat := none
  filter : KeyFilter := ⟨none⟩
  limit_pos : 0 < limit := by decide
  maxIdle_ne_zero : maxIdle ≠ some 0 := by decide

instance : Inhabited ReaderConfig := ⟨{}⟩

/-- Configurations are equal when they ask for the same, allowed keys being compared as sets. -/
instance : BEq ReaderConfig :=
  ⟨fun a b => a.temporality == b.temporality && a.limit == b.limit && a.maxIdle == b.maxIdle &&
    a.filter.sameKeys b.filter⟩

/-- What a reader asks for; what it leaves open takes its default. -/
structure ReaderOptions where
  temporality : Temporality := .cumulative
  limit : Option Nat := none
  maxIdle : Option Nat := none
  allowed : Option (List String) := none

/-- The configuration asked for. A limit of zero is found before an idle time of zero. -/
def ReaderOptions.build (o : ReaderOptions) : Except ConfigError ReaderConfig :=
  let limit := o.limit.getD 2000
  if limit_pos : 0 < limit then
    if maxIdle_ne_zero : o.maxIdle ≠ some 0 then
      .ok { temporality := o.temporality, limit, maxIdle := o.maxIdle, filter := .ofKeys o.allowed,
            limit_pos, maxIdle_ne_zero }
    else .error .zeroIdleCycles
  else .error .zeroCardinalityLimit

end Metering
