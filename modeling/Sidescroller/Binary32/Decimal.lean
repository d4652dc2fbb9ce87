/-!
# Decimal numbers

A number as it is written in a document, and the binary32 number it stands for.

* `toSingle` rounds once, to the nearest binary32 number.
* `toSingleByDouble` rounds to the nearest binary64 number first, and that to binary32. The two
  differ where the first rounding lands half way between two binary32 numbers.

A number can be written with any number of digits. `cutAfter` bounds them before it is rounded.
-/

namespace Sidescroller.Binary32

/-- The number `± mantissa * 10 ^ exponent`. A zero has a sign, too. -/
structure Decimal where
  /-- Whether there is a minus sign. -/
  negative : Bool
  /-- The digits, read as one number. -/
  mantissa : Nat
  /-- The power of ten. -/
  exponent : Int
  deriving DecidableEq, Inhabited

namespace Decimal

/-- How many digits the mantissa has. -/
def digitCount (number : Decimal) : Nat := (Nat.toDigits 10 number.mantissa).length

/-- The position of the first digit: the magnitude is below `10 ^ place`, and not below
`10 ^ (place - 1)` unless it is zero. -/
def place (number : Decimal) : Int := number.digitCount + number.exponent

/-- The number with a single `1` in place of all digits after the first `limit`. The `1` tells that
there were more of them, so that rounding sees a magnitude above that of the first digits alone;
zeros count like any others. -/
def cutAfter (limit : Nat) (number : Decimal) : Decimal :=
  let surplus := number.digitCount - limit
  if surplus = 0 then number
  else
    { number with
      mantissa := number.mantissa / Nat.pow 10 surplus * 10 + 1
      exponent := number.exponent + (surplus - 1 : Nat) }

/-- The magnitude of the nearest binary32 number, infinity if it is too large. Numbers that are far
out of range are told by the position of their first digit. -/
def magnitude32 (number : Decimal) : Float32 :=
  if number.mantissa = 0 ∨ number.place < -60 then 0
  else if 60 < number.place then Float32.ofBits 0x7f800000
  else Float32.ofScientific number.mantissa (number.exponent < 0) number.exponent.natAbs

/-- The magnitude of the nearest binary64 number, infinity if it is too large. -/
def magnitude64 (number : Decimal) : Float :=
  if number.mantissa = 0 ∨ number.place < -400 then 0
  else if 400 < number.place then Float.ofBits 0x7ff0000000000000
  else Float.ofScientific number.mantissa (number.exponent < 0) number.exponent.natAbs

/-- The nearest binary32 number. -/
def toSingle (number : Decimal) : Float32 :=
  if number.negative then -number.magnitude32 else number.magnitude32

/-- The binary32 number nearest to the nearest binary64 number. -/
def toSingleByDouble (number : Decimal) : Float32 :=
  let magnitude := number.magnitude64.toFloat32
  if number.negative then -magnitude else magnitude

/-- Whether the number is beyond all binary64 numbers. -/
def overflows64 (number : Decimal) : Bool := number.magnitude64.isInf

end Decimal

end Sidescroller.Binary32
