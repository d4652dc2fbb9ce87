/-!
# Order on single-precision numbers

The order of binary32 is partial: a NaN is neither below nor above anything. The functions here say
what the library does with it.

* `lesser` and `greater` pick one of two numbers; a NaN gives way to the other operand.
* `least?` and `greatest?` pick one of a list.
* `clamp` brings a number into an interval and leaves a NaN alone.
* `nextBelow` is the neighbour below a number, and `rank` counts the positions below it, so that a
  walk downwards has a measure.
-/

namespace Sidescroller.Binary32

/-- The smaller of two numbers. A NaN gives way to the other operand, and of two operands that
compare equal, such as the two zeros, the second is taken. -/
def lesser (a b : Float32) : Float32 := if a < b || b.isNaN then a else b

/-- The larger of two numbers, with the same rules as `lesser`. -/
def greater (a b : Float32) : Float32 :=
  if b < a || b.isNaN then a else b

/-- The smallest number of a list, if there is one. -/
def least? : List Float32 → Option Float32
  | [] => none
  | x :: xs => some (xs.foldl lesser x)

/-- The largest number of a list, if there is one. -/
def greatest? : List Float32 → Option Float32
  | [] => none
  | x :: xs => some (xs.foldl greater x)

/-- The number of the interval from `lo` to `hi` that is nearest to `x`; a NaN stays a NaN. The
interval is meant to be ordered, `lo ≤ hi`. -/
def clamp (lo hi x : Float32) : Float32 :=
  let raised := if x < lo then lo else x
  if hi < raised then hi else raised

/-- The neighbour below: the largest number that is smaller. Both zeros have the smallest negative
number below them. -/
def nextBelow (x : Float32) : Float32 :=
  if x == 0 then Float32.ofBits 0x80000001
  else if 0 < x then Float32.ofBits (x.toBits - 1)
  else Float32.ofBits (x.toBits + 1)

/-- The position of a number in the order of binary32, counted from the bottom. The two zeros share
one position. -/
def rank (x : Float32) : Nat :=
  let bits := x.toBits.toNat
  if bits < 0x80000000 then 0x80000000 + bits else 0x100000000 - bits

end Sidescroller.Binary32
