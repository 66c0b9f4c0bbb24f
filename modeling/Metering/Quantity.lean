import Metering.Binary64.Numeral

/-!
# Measured quantities

Instruments measure signed words, unsigned words or binary floating-point numbers. `Quantity` is
what aggregation needs of such a type: its comparisons, its extremes, and sums that never fail.
-/

namespace Metering

/-- A type of numbers that an instrument can measure. -/
class Quantity (T : Type) where
  /-- The sum of nothing. -/
  zero : T
  /-- A value that no other lies below; the maximum of nothing. -/
  least : T
  /-- A value that no other lies above; the minimum of nothing. -/
  greatest : T
  /-- The sum, modulo `2 ^ 64` for words. -/
  add : T → T → T
  /-- `minus a b` is `a - b`: modulo `2 ^ 64` for signed words, at least `0` for unsigned ones. -/
  minus : T → T → T
  /-- The nearest floating-point number. -/
  toBinary64 : T → Binary64
  numEq : T → T → Bool
  numLt : T → T → Bool
  numLe : T → T → Bool
  /-- Whether the value is no number at all, and so never a valid measurement. -/
  isNaN : T → Bool
  /-- Whether the value lies strictly below zero. -/
  isNegative : T → Bool
  /-- The value as it stands in descriptions. -/
  text : T → String

namespace Quantity

variable {T : Type} [Quantity T]

/-- The smaller of a running minimum and a new value; the running one unless the new one is
strictly below it. -/
def lower (running new : T) : T := if numLt new running then new else running

/-- The greater of a running maximum and a new value; the running one unless the new one is
strictly above it. -/
def higher (running new : T) : T := if numLt running new then new else running

end Quantity

instance : Quantity Int64 where
  zero := 0
  least := Int64.minValue
  greatest := Int64.maxValue
  add a b := a + b
  minus a b := a - b
  toBinary64 a := .ofInt a.toInt
  numEq a b := a == b
  numLt a b := decide (a < b)
  numLe a b := decide (a ≤ b)
  isNaN _ := false
  isNegative a := decide (a < 0)
  text a := toString a.toInt

instance : Quantity UInt64 where
  zero := 0
  least := 0
  greatest := 0xFFFFFFFFFFFFFFFF
  add a b := a + b
  minus a b := if b ≤ a then a - b else 0
  toBinary64 a := .ofInt a.toNat
  numEq a b := a == b
  numLt a b := decide (a < b)
  numLe a b := decide (a ≤ b)
  isNaN _ := false
  isNegative _ := false
  text a := toString a.toNat

instance : Quantity Binary64 where
  zero := .zero
  least := .negInfinity
  greatest := .infinity
  add := Binary64.add
  minus := Binary64.sub
  toBinary64 x := x
  numEq := Binary64.numEq
  numLt := Binary64.numLt
  numLe := Binary64.numLe
  isNaN := Binary64.isNaN
  isNegative x := x.numLt Binary64.zero
  text := Binary64.numeral .pointed

end Metering
