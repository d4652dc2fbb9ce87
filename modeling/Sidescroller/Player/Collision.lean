import Sidescroller.Level.Basic
import Sidescroller.Player.Body

/-!
# Collision with platforms

A step moves the body along one axis after the other, horizontally first. After each move the body
is pushed back out of whatever it has run into, on the side it came from, so that a collision always
has one direction to push in and corners never catch.

* `flushBefore` is where a body comes to rest against an edge ahead of it.
* `settleX` and `settleY` push a body out until it overlaps nothing. Leaving one platform may mean
  entering another; one round per platform and one more is what they are given.
* `slideX` and `slideY` are a move along one axis, `step` is a whole step.
-/

namespace Sidescroller

/-- What a body touched during a step. -/
structure Contacts where
  /-- It was stopped by a wall. -/
  wall : Bool := false
  /-- It landed on a platform. -/
  landed : Bool := false
  /-- It hit a platform above it. -/
  headBump : Bool := false
  deriving DecidableEq, Inhabited

namespace Collision

/-- Walks down from `position`, one number at a time and at most `n` times, until the far edge
`position + size` no longer passes `edge`. -/
def retreat (edge size : Float32) : Nat → Float32 → Float32
  | 0, position => position
  | n + 1, position =>
    if edge < position + size then retreat edge size n (Binary32.nextBelow position) else position

/-- Where a body of extent `size` stands when its far side is flush with `edge`. The difference of
the two is rounded, so the walk down corrects a position whose far edge would pass `edge`. There are
no more positions to walk through than the rank of the first one. -/
def flushBefore (edge size : Float32) : Float32 :=
  retreat edge size (Binary32.rank (edge - size)) (edge - size)

/-- The platforms that a rectangle overlaps. -/
def hits (platforms : List Platform) (rect : Rect) : List Platform :=
  platforms.filter fun platform => rect.overlaps platform.bounds

/-- Where a body of width `width` moving by `dx` stops, given the platforms it has run into:
before the leftmost left edge, or behind the rightmost right edge. -/
def stopX? (dx width : Float32) (obstacles : List Platform) : Option Float32 :=
  if 0 < dx then
    Binary32.least? (obstacles.map fun platform => flushBefore platform.bounds.left width)
  else
    Binary32.greatest? (obstacles.map fun platform => platform.bounds.right)

/-- Where a body of height `height` moving by `dy` stops, given the platforms it has run into. -/
def stopY? (dy height : Float32) (obstacles : List Platform) : Option Float32 :=
  if 0 < dy then
    Binary32.least? (obstacles.map fun platform => flushBefore platform.bounds.top height)
  else
    Binary32.greatest? (obstacles.map fun platform => platform.bounds.bottom)

/-- Pushes a body that has moved by `dx` out of the platforms it overlaps, for at most `rounds`
rounds. The flag says whether it was pushed before; the answer says whether it was pushed at all. -/
def settleX (platforms : List Platform) (dx : Float32) : Nat → Body → Bool → Body × Bool
  | 0, body, pushed => (body, pushed)
  | rounds + 1, body, pushed =>
    -- With nothing in the way the body has settled.
    match stopX? dx body.size.x (hits platforms body.rect) with
    | none => (body, pushed)
    | some x => settleX platforms dx rounds (body.withX x) true

/-- The body that has been stopped at height `y` while moving by `dy`: it falls no further, and
stands if it was moving down. -/
def stopAt (body : Body) (dy y : Float32) : Body :=
  { body.withY y with
    velocity := ⟨body.velocity.x, 0⟩
    onGround := body.onGround || 0 < dy }

/-- Pushes a body that has moved by `dy` out of the platforms it overlaps, for at most `rounds`
rounds, and records what it touched. -/
def settleY (platforms : List Platform) (dy : Float32) :
    Nat → Body → Contacts → Body × Contacts
  | 0, body, contacts => (body, contacts)
  | rounds + 1, body, contacts =>
    -- With nothing in the way the body has settled.
    match stopY? dy body.size.y (hits platforms body.rect) with
    | none => (body, contacts)
    | some y =>
      settleY platforms dy rounds (stopAt body dy y)
        (if 0 < dy then { contacts with landed := true } else { contacts with headBump := true })

/-- Moves a body by `dx` and pushes it out of the platforms. Returns whether a wall stopped it. A
body that does not move is left where it is, even inside a platform. -/
def slideX (platforms : List Platform) (body : Body) (dx : Float32) : Body × Bool :=
  let moved := body.withX (body.position.x + dx)
  if dx == 0 then (moved, false) else settleX platforms dx (platforms.length + 1) moved false

/-- Moves a body by `dy` and pushes it out of the platforms. Returns what it touched. -/
def slideY (platforms : List Platform) (body : Body) (dy : Float32) : Body × Contacts :=
  let moved := body.withY (body.position.y + dy)
  if dy == 0 then (moved, {}) else settleY platforms dy (platforms.length + 1) moved {}

/-- One step of `dt` seconds: the body picks up its velocity, loses its footing, and moves
horizontally and then vertically. It stands again only if it lands. -/
def step (platforms : List Platform) (body : Body) (heading : Heading) (jump : Bool)
    (dt : Float32) : Body × Contacts :=
  -- The jump has read `onGround` by now, so it can be cleared before the moves.
  let (driven, delta) := body.integrate heading jump dt
  let (slid, wall) := slideX platforms { driven with onGround := false } delta.x
  let (settled, contacts) := slideY platforms slid delta.y
  (settled, { contacts with wall })

end Collision

end Sidescroller
