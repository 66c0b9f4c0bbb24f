import Metering.Binary64

/-!
# Shortest decimal numerals

A number is written with the fewest decimal digits that single it out: every real closer to it than
to its neighbours reads back as the same word. `shortest` finds those digits on exact integers, and
a `Style` lays them out.
-/

namespace Metering.Binary64

/-! ## Digits -/

/-- The decimal `coefficient * 10 ^ exponent`. -/
structure Decimal where
  coefficient : Nat
  exponent : Int
deriving DecidableEq

/-- The reals that round to one magnitude, in units of `2 ^ -1075`: from half way down to the
magnitude below to half way up to the one above. The ends belong to it when the magnitude is
even, since ties go to the even one. -/
structure Interval where
  low : Nat
  middle : Nat
  high : Nat
  closed : Bool

/-- The interval of a finite magnitude other than zero. -/
def Interval.ofMagnitude (m : Nat) : Interval where
  low := magnitudeUnits m + magnitudeUnits (m - 1)
  middle := 2 * magnitudeUnits m
  high := magnitudeUnits m + magnitudeUnits (m + 1)
  closed := m % 2 == 0

/-- Whether the fraction `n / d`, in units of `2 ^ -1075`, lies in the interval. -/
def Interval.contains (i : Interval) (n d : Nat) : Bool :=
  if i.closed then decide (i.low * d ≤ n) && decide (n ≤ i.high * d)
  else decide (i.low * d < n) && decide (n < i.high * d)

/-- The multiple of `10 ^ e` in the interval that is nearest to its middle, of two equally near
ones the greater, if there is any. Only the two neighbours of the middle need be tried. -/
def Interval.nearest? (i : Interval) (e : Int) : Option Nat :=
  let step := Nat.pow 10 e.toNat <<< 1075
  let scale := Nat.pow 10 (-e).toNat
  let below := i.middle * scale / step
  let above := below + 1
  match i.contains (below * step) scale, i.contains (above * step) scale with
  | false, false => none
  | true, false => some below
  | false, true => some above
  | true, true =>
    if i.middle * scale - below * step < above * step - i.middle * scale then some below
    else some above

/-- The place of the decimal point, counted from the first digit: the `k` with
`10 ^ (k - 1) ≤ v < 10 ^ k`. The value is at least `10 ^ -400`, so scaling by `10 ^ 400` leaves a
whole part whose digits can be counted. -/
def Interval.pointPlace (i : Interval) : Int :=
  ((Nat.toDigits 10 (i.middle * Nat.pow 10 400 >>> 1075)).length : Int) - 400

/-- The fewest digits that single out a finite magnitude other than zero; 17 always do. -/
def shortest (m : Nat) : Decimal :=
  let i := Interval.ofMagnitude m
  let found := (List.range 17).findSome? fun (n : Nat) =>
    -- the place of the last of `n + 1` digits
    let e := i.pointPlace - (n + 1)
    (i.nearest? e).map fun c => (⟨c, e⟩ : Decimal)
  match found with
  | none => ⟨0, 0⟩
  -- rounding up may have carried, which leaves a digit that is not needed
  | some d => if d.coefficient % 10 = 0 then ⟨d.coefficient / 10, d.exponent + 1⟩ else d

/-! ## Layout -/

/-- How a numeral is laid out. -/
structure Style where
  /-- The places of the decimal point at which no exponent is written. -/
  positional : Int → Bool
  /-- Whether a whole number ends in `.0`. -/
  keepsPoint : Bool

/-- Positional at every size, and whole numbers without a point. -/
def Style.plain : Style := ⟨fun _ => true, false⟩

/-- Positional from `0.0001` to below `10 ^ 16`, and whole numbers with a point. -/
def Style.pointed : Style := ⟨fun place => decide (-3 ≤ place) && decide (place ≤ 16), true⟩

private def zeros (n : Nat) : String := String.ofList (List.replicate n '0')

/-- Lay out the digits of `d`, which is not zero. -/
def Style.layOut (s : Style) (d : Decimal) : String :=
  let digits := Nat.toDigits 10 d.coefficient
  let place := d.exponent + digits.length
  if s.positional place then
    if place ≤ 0 then "0." ++ zeros (-place).toNat ++ String.ofList digits
    else if digits.length ≤ place.toNat then
      String.ofList digits ++ zeros (place.toNat - digits.length) ++
        if s.keepsPoint then ".0" else ""
    else String.ofList (digits.take place.toNat) ++ "." ++ String.ofList (digits.drop place.toNat)
  else
    let fraction := if digits.length ≤ 1 then "" else "." ++ String.ofList (digits.drop 1)
    String.ofList (digits.take 1) ++ fraction ++ "e" ++ toString (place - 1)

/-- The numeral of `x` in a style, with a `-` in front when the sign bit is set. -/
def numeral (s : Style) (x : Binary64) : String :=
  if x.isNaN then "NaN"
  else
    let size :=
      if x.isInfinite then "inf"
      else if x.magnitude = 0 then (if s.keepsPoint then "0.0" else "0")
      else s.layOut (shortest x.magnitude)
    if x.signBit then "-" ++ size else size

end Metering.Binary64
