/-!
# Binary floating-point numbers

A `Binary64` is the 64-bit word of an IEEE 754 number. Every finite one is a whole number of
`units` of `2 ^ -1074`, so sums, differences and conversions are exact integer arithmetic followed
by one rounding, `ofUnits`, to the nearest word with ties to the even one.
-/

namespace Metering

/-- An IEEE 754 binary64 number, kept as its word: a sign bit, 11 exponent bits, 52 fraction bits. -/
structure Binary64 where
  bits : UInt64
deriving DecidableEq, Inhabited

namespace Binary64

/-! ## Parts of the word -/

/-- The place of the sign bit, `2 ^ 63`. -/
def signPlace : Nat := 0x8000000000000000

/-- The place of the exponent, `2 ^ 52`. In a significand it is that of the hidden bit. -/
def exponentPlace : Nat := 0x10000000000000

/-- The word without its sign bit. -/
def magnitude (x : Binary64) : Nat := x.bits.toNat % signPlace

/-- Whether the sign bit is set; it is for `-0.0`. -/
def signBit (x : Binary64) : Bool := decide (signPlace ≤ x.bits.toNat)

/-- The magnitude of the infinities: every exponent bit set and no fraction bit. -/
def infiniteMagnitude : Nat := 0x7FF0000000000000

/-- Assemble a word from its sign and its magnitude. -/
def ofMagnitude (negative : Bool) (m : Nat) : Binary64 :=
  ⟨UInt64.ofNat (if negative then signPlace + m else m)⟩

def zero : Binary64 := ofMagnitude false 0
def infinity : Binary64 := ofMagnitude false infiniteMagnitude
def negInfinity : Binary64 := ofMagnitude true infiniteMagnitude

/-- The NaN that arithmetic yields. -/
def nan : Binary64 := ⟨0x7FF8000000000000⟩

def isNaN (x : Binary64) : Bool := decide (infiniteMagnitude < x.magnitude)
def isInfinite (x : Binary64) : Bool := decide (x.magnitude = infiniteMagnitude)
def isFinite (x : Binary64) : Bool := decide (x.magnitude < infiniteMagnitude)

/-! ## Comparison

Words of one sign are ordered as their magnitudes are, so numbers other than NaN are ordered by
`rank`, on which the two zeros agree. -/

/-- The magnitude with the number's sign. -/
def rank (x : Binary64) : Int := if x.signBit then -(x.magnitude : Int) else x.magnitude

/-- Equality of numbers: the zeros are equal and a NaN equals nothing. -/
def numEq (x y : Binary64) : Bool := !x.isNaN && !y.isNaN && decide (x.rank = y.rank)

/-- Strict order of numbers; a NaN is on neither side of anything. -/
def numLt (x y : Binary64) : Bool := !x.isNaN && !y.isNaN && decide (x.rank < y.rank)

/-- Order of numbers; a NaN is on neither side of anything. -/
def numLe (x y : Binary64) : Bool := !x.isNaN && !y.isNaN && decide (x.rank ≤ y.rank)

/-! ## Exact values and rounding -/

/-- How many units of `2 ^ -1074` a finite magnitude stands for: without an exponent the fraction
itself, and else the fraction with its hidden bit, shifted by the exponent. -/
def magnitudeUnits (m : Nat) : Nat :=
  if m < exponentPlace then m
  else (exponentPlace + m % exponentPlace) <<< (m / exponentPlace - 1)

/-- The exact value of a finite number in units of `2 ^ -1074`. -/
def units (x : Binary64) : Int :=
  if x.signBit then -(magnitudeUnits x.magnitude : Int) else magnitudeUnits x.magnitude

/-- The magnitude nearest to `n` units, ties to the even one, and the infinite one from half a
step beyond the largest finite magnitude on. The quotient keeps 53 significant bits; added to the
exponent's place its hidden bit, and a carry out of the rounding, raise the exponent by one. -/
def roundUnits (n : Nat) : Nat :=
  let shift := n.log2 - 52
  let step := 1 <<< shift
  let quotient := n / step
  let remainder := n % step
  let roundsUp := step < 2 * remainder ∨ 2 * remainder = step ∧ quotient % 2 = 1
  min infiniteMagnitude (shift * exponentPlace + if roundsUp then quotient + 1 else quotient)

/-- The number nearest to `n` units of `2 ^ -1074`. -/
def ofUnits (n : Int) : Binary64 := ofMagnitude (decide (n < 0)) (roundUnits n.natAbs)

/-- The number nearest to an integer. -/
def ofInt (n : Int) : Binary64 := ofUnits (n * (1 <<< 1074 : Nat))

/-! ## Arithmetic -/

/-- The number with the opposite sign bit. -/
def neg (x : Binary64) : Binary64 := ofMagnitude (!x.signBit) x.magnitude

/-- The rounded sum. Opposite infinities have none, and a zero sum is negative only when both
summands are negative zeros. -/
def add (x y : Binary64) : Binary64 :=
  if x.isNaN || y.isNaN then nan
  else if x.isInfinite then
    if y.isInfinite && x.signBit != y.signBit then nan else x
  else if y.isInfinite then y
  -- `ofUnits` would make every zero a positive one
  else if x.units + y.units = 0 then ofMagnitude (x.signBit && y.signBit) 0
  else ofUnits (x.units + y.units)

/-- The rounded difference. -/
def sub (x y : Binary64) : Binary64 := add x y.neg

end Binary64

end Metering
