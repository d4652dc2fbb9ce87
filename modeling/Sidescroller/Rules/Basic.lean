import Sidescroller.Plane

/-!
# The rules of a world

The numbers that tune a world, in three groups: how the player moves, what the camera shows, and how
near one has to stand to talk. The default of every field is the value the campus was drawn for, so
`({} : Rules)` are the rules of the campus. The defaults have names of their own in `Rules.Default`,
since they are used twice: for rules that are built, and for rules that are read from a document.

Rules are data: nothing here asks them to make sense. `Rules.violation?` says which do not.
-/

namespace Sidescroller

namespace Rules

/-! ### The values for the campus -/

namespace Default

def bodyWidth : Float32 := 36

def bodyHeight : Float32 := 60

def spawn : Vec2 := ⟨100, 340⟩

def speed : Float32 := 252

def jumpForce : Float32 := 660

def gravity : Float32 := 2160

def terminalVelocity : Float32 := 720

def viewportWidth : Float32 := 960

def viewportHeight : Float32 := 540

def minX : Float32 := -300

def maxX : Float32 := 2000

def minY : Float32 := -100

def maxY : Float32 := 40

def margin : Float32 := 10

def cooldown : Float32 := 0.5

end Default

/-! ### The rules -/

/-- How the player moves. Rates are per second. -/
structure Movement where
  width : Float32 := Default.bodyWidth
  height : Float32 := Default.bodyHeight
  spawn : Vec2 := Default.spawn
  /-- Horizontal speed while a direction is held. -/
  speed : Float32 := Default.speed
  /-- Upward speed given by a jump. -/
  jumpForce : Float32 := Default.jumpForce
  /-- Downward acceleration. -/
  gravity : Float32 := Default.gravity
  /-- Largest downward speed. -/
  terminalVelocity : Float32 := Default.terminalVelocity
  deriving DecidableEq, Inhabited

/-- What the camera shows: the size of its view, and the range its upper left corner may scroll
through. -/
structure Scrolling where
  viewportWidth : Float32 := Default.viewportWidth
  viewportHeight : Float32 := Default.viewportHeight
  /-- Leftmost scroll position. -/
  minX : Float32 := Default.minX
  /-- Rightmost scroll position. -/
  maxX : Float32 := Default.maxX
  /-- Uppermost scroll position. -/
  minY : Float32 := Default.minY
  /-- Lowest scroll position. -/
  maxY : Float32 := Default.maxY
  deriving DecidableEq, Inhabited

/-- When a character can be talked to. -/
structure Interaction where
  /-- Distance added to every side of a character's bounds. -/
  margin : Float32 := Default.margin
  /-- Seconds that pass before the next conversation may be opened. -/
  cooldown : Float32 := Default.cooldown
  deriving DecidableEq, Inhabited

end Rules

/-- The rules of a world. -/
structure Rules where
  movement : Rules.Movement := {}
  scrolling : Rules.Scrolling := {}
  /-- When a character can be talked to. -/
  interaction : Rules.Interaction := {}
  deriving DecidableEq, Inhabited

end Sidescroller
