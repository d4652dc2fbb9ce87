import Sidescroller.Binary32.Shortest

/-!
# Numbers as text

How a binary32 number is written. Both forms have the shortest digits that read back as the number.

* `plain` never uses an exponent and writes a whole number without a point.
* `json` always shows that the number is not an integer, and uses an exponent for the very large and
  the very small.
-/

namespace Sidescroller.Binary32

/-- A text of `n` zeros. -/
def zeros (n : Nat) : String := String.ofList (List.replicate n '0')

/-- Whether the sign bit is set. -/
def isSigned (x : Float32) : Bool := 0x80000000 ≤ x.toBits

/-- Digits with a point after the first `place` of them; zeros are put in front if the point is at
or before the first digit. -/
def pointed (digits : String) (place : Int) : String :=
  if 0 < place then
    let cs := digits.toList
    String.ofList (cs.take place.toNat) ++ "." ++ String.ofList (cs.drop place.toNat)
  else "0." ++ zeros (-place).toNat ++ digits

/-- The magnitude of a positive number without an exponent. -/
def plainMagnitude (number : DecimalDigits) : String :=
  let digits := toString number.digits
  if 0 ≤ number.exponent then digits ++ zeros number.exponent.toNat
  else pointed digits (digits.length + number.exponent)

/-- The number in full: no exponent, no point on a whole number, and the words "NaN" and "inf". A
tie between two shortest forms goes up. -/
def plain (x : Float32) : String :=
  if x.isNaN then "NaN"
  else
    let magnitude :=
      if x.isInf then "inf"
      else if x == 0 then "0"
      else plainMagnitude (shortest .up x)
    if isSigned x then "-" ++ magnitude else magnitude

/-- The magnitude of a positive number in a JSON text: in full with at least one decimal place while
the point falls within 13 digits or at most five zeros follow it, and with an exponent otherwise. -/
def jsonMagnitude (number : DecimalDigits) : String :=
  let digits := toString number.digits
  let place : Int := digits.length + number.exponent
  if 0 ≤ number.exponent ∧ place ≤ 13 then digits ++ zeros number.exponent.toNat ++ ".0"
  else if -6 < place ∧ place ≤ 13 then pointed digits place
  else
    let power := "e" ++ toString (place - 1)
    if digits.length = 1 then digits ++ power else pointed digits 1 ++ power

/-- The number in a JSON text. What is not finite is written as null. A tie between two shortest
forms goes to the even digit. -/
def json (x : Float32) : String :=
  if x.isNaN || x.isInf then "null"
  else
    let magnitude := if x == 0 then "0.0" else jsonMagnitude (shortest .toEven x)
    if isSigned x then "-" ++ magnitude else magnitude

end Sidescroller.Binary32
