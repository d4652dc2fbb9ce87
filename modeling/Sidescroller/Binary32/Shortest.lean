/-!
# Shortest decimal digits

A binary32 number stands for all reals that round to it. `shortest` is the decimal number with the
fewest digits among them, and of those the nearest.

The search goes through the decimal grids from coarse to fine. On each grid the two points around
the number are tested, in whole numbers throughout. The first grid with a hit gives the digits.
-/

namespace Sidescroller.Binary32

/-- A number `mantissa * 2 ^ exponent`. -/
structure Dyadic where
  /-- The factor in front. -/
  mantissa : Nat
  /-- The power of two. -/
  exponent : Int
  deriving DecidableEq

/-- A number `digits * 10 ^ exponent`. -/
structure DecimalDigits where
  /-- The digits, read as one number. -/
  digits : Nat
  /-- The power of ten. -/
  exponent : Int
  deriving DecidableEq

/-- The magnitude of a finite number as mantissa and exponent. A number with exponent field zero has
no hidden bit. -/
def magnitude (x : Float32) : Dyadic :=
  let bits := x.toBits.toNat % 0x80000000
  let field := bits / 0x800000
  if field = 0 then ⟨bits, -149⟩ else ⟨0x800000 + bits % 0x800000, Int.ofNat field - 150⟩

/-- Which of two equally near decimal numbers is taken. -/
inductive Tie where
  /-- The larger one. -/
  | up
  /-- The one with an even last digit. -/
  | toEven
  deriving DecidableEq

/-- The point of the decimal grid `10 ^ k` that rounds to the number, if there is one; of two, the
nearer. Lengths are counted in quarters of the unit in the last place of the number; there are
`scaleDown / scaleUp` of them between two points of the grid. The interval of the reals that round
to the number ends two quarters away on either side, or one quarter below a power of two, and
contains its ends when the mantissa is even. -/
def gridPoint? (tie : Tie) (number : Dyadic) (k : Int) : Option Nat :=
  let q := number.exponent - 2
  let scaleUp := Nat.pow 2 q.toNat * Nat.pow 10 (-k).toNat
  let scaleDown := Nat.pow 2 (-q).toNat * Nat.pow 10 k.toNat
  let quarters := 4 * number.mantissa
  let gap := if number.mantissa = 0x800000 ∧ -149 < number.exponent then 1 else 2
  let lowest := (quarters - gap) * scaleUp
  let highest := (quarters + 2) * scaleUp
  let inside (d : Nat) : Bool :=
    let point := d * scaleDown
    if number.mantissa % 2 = 0 then lowest ≤ point && point ≤ highest
    else lowest < point && point < highest
  -- The two points of the grid around the number are `floor` and `floor + 1`.
  let floor := quarters * scaleUp / scaleDown
  let rest := 2 * (quarters * scaleUp % scaleDown)
  match inside floor, inside (floor + 1) with
  | true, false => some floor
  | false, true => some (floor + 1)
  | false, false => none
  | true, true =>
    -- Both read back: the one that is less than half a grid unit away wins.
    let upper := rest > scaleDown || (rest = scaleDown && (tie = .up || floor % 2 = 1))
    some (if upper then floor + 1 else floor)

/-- The shortest decimal number that rounds to a positive finite number. Every such number is below
`10 ^ 39`, and the grid of its own last binary place is never finer than `10 ^ (-149)`. -/
def shortest (tie : Tie) (x : Float32) : DecimalDigits :=
  let found := (List.range 189).findSome? fun i =>
    let k := 39 - Int.ofNat i
    (gridPoint? tie (magnitude x) k).map fun d => (⟨d, k⟩ : DecimalDigits)
  found.getD ⟨0, 0⟩

end Sidescroller.Binary32
