import Sidescroller.Rules.Basic
import Sidescroller.Binary32.Written

/-!
# Rules that do not make sense

`Rules.violation?` is the first thing that is wrong with some rules. All tests are comparisons that
ask for a wrong value; a NaN compares with nothing and so is never found wrong.
-/

namespace Sidescroller.Rules

/-- What can be wrong with rules. -/
inductive Violation where
  /-- The body has no extent on one axis. -/
  | bodySize (width height : Float32)
  /-- A rate of movement is negative. -/
  | negativeRate
  /-- The body could not fall. -/
  | terminalVelocity (speed : Float32)
  /-- The scroll range is reversed on one axis. -/
  | scrollRange
  /-- The margin or the cooldown is negative. -/
  | negativeInteraction
  deriving DecidableEq

namespace Violation

/-- The part of the rules that is wrong. -/
def field : Violation → String
  | bodySize _ _ => "movement.size"
  | negativeRate => "movement"
  | terminalVelocity _ => "movement.terminal_velocity"
  | scrollRange => "camera"
  | negativeInteraction => "interaction"

/-- What is wrong with it. -/
def reason : Violation → String
  | bodySize width height =>
    Binary32.plain width ++ "x" ++ Binary32.plain height ++ " must be positive"
  | negativeRate => "speed, jump_force and gravity must not be negative"
  | terminalVelocity speed => Binary32.plain speed ++ " must be positive"
  | scrollRange => "minimum bounds must not exceed maximum bounds"
  | negativeInteraction => "margin and cooldown must not be negative"

/-- The violation as shown to a person. -/
def message (violation : Violation) : String :=
  "Invalid value for " ++ violation.field ++ ": " ++ violation.reason

end Violation

/-- The first thing that is wrong with the rules: body size, rates, terminal velocity, scroll range
and interaction are looked at in this order. -/
def violation? (rules : Rules) : Option Violation :=
  let m := rules.movement
  let s := rules.scrolling
  let i := rules.interaction
  if m.width ≤ 0 ∨ m.height ≤ 0 then some (.bodySize m.width m.height)
  else if m.speed < 0 ∨ m.jumpForce < 0 ∨ m.gravity < 0 then some .negativeRate
  else if m.terminalVelocity ≤ 0 then some (.terminalVelocity m.terminalVelocity)
  else if s.maxX < s.minX ∨ s.maxY < s.minY then some .scrollRange
  else if i.margin < 0 ∨ i.cooldown < 0 then some .negativeInteraction
  else none

end Sidescroller.Rules
