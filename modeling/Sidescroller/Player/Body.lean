import Sidescroller.Binary32.Order
import Sidescroller.Plane
import Sidescroller.Player.Intent
import Sidescroller.Rules.Basic

/-!
# The player's body

A body has a position, a velocity and a size, and knows whether it stands on something.
`Body.integrate` turns a direction, a jump and a span of time into a velocity and the displacement
it asks for; whether the body gets there is a matter of collision.
-/

namespace Sidescroller

/-- The player's body. -/
structure Body where
  /-- Upper left corner. -/
  position : Vec2
  /-- Velocity, per second. -/
  velocity : Vec2
  size : Vec2
  /-- Whether the body stands on a platform. -/
  onGround : Bool
  tuning : Rules.Movement
  deriving DecidableEq, Inhabited

namespace Body

/-- A body at rest in the air, where the rules have it start. -/
def spawn (tuning : Rules.Movement) : Body where
  position := tuning.spawn
  velocity := Vec2.zero
  size := ⟨tuning.width, tuning.height⟩
  onGround := false
  tuning := tuning

/-- The body moved to a position. -/
def placedAt (body : Body) (position : Vec2) : Body := { body with position }

/-- The rectangle the body fills. -/
def rect (body : Body) : Rect := Rect.ofCorner body.position body.size

/-- The body with another horizontal position. -/
def withX (body : Body) (x : Float32) : Body := { body with position := ⟨x, body.position.y⟩ }

/-- The body with another vertical position. -/
def withY (body : Body) (y : Float32) : Body := { body with position := ⟨body.position.x, y⟩ }

/-- The body that takes off if a jump is pressed while it stands. -/
def takeOff (body : Body) (jump : Bool) : Body :=
  if jump && body.onGround then
    { body with
      velocity := ⟨body.velocity.x, -body.tuning.jumpForce⟩
      onGround := false }
  else body

/-- One span of time `dt`: the horizontal speed follows the direction held, a jump takes off from
the ground, and gravity accelerates the fall up to the terminal velocity. Returns the body, not yet
moved, and the displacement it asks for. -/
def integrate (body : Body) (heading : Heading) (jump : Bool) (dt : Float32) : Body × Vec2 :=
  let body := body.takeOff jump
  let vx := heading.sign * body.tuning.speed
  let vy := Binary32.lesser (body.velocity.y + body.tuning.gravity * dt)
    body.tuning.terminalVelocity
  ({ body with velocity := ⟨vx, vy⟩ }, ⟨vx * dt, vy * dt⟩)

end Body

end Sidescroller
