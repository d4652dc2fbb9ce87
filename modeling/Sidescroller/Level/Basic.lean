import Sidescroller.Plane

/-!
# Levels

A level is what does not change during play: the platforms, and the characters that stand in it. The
order of the characters is the order in which they are looked for.
-/

namespace Sidescroller

/-- A colour, by its red, green and blue parts. -/
structure Color where
  red : UInt8
  green : UInt8
  blue : UInt8
  deriving DecidableEq, Inhabited

/-- Something solid to stand on or bump into. -/
structure Platform where
  bounds : Rect
  deriving DecidableEq, Inhabited

/-- A character of the level that the player can talk to. -/
structure Npc where
  name : String
  bounds : Rect
  /-- Id of the story node that a conversation starts on. -/
  entry : String
  /-- Colour shown. -/
  color : Color
  deriving DecidableEq, Inhabited

/-- The platforms and the characters of a level. -/
structure Level where
  /-- What is solid. -/
  platforms : List Platform
  /-- Who can be talked to, in the order they are looked for. -/
  npcs : List Npc
  deriving DecidableEq, Inhabited

namespace Level

/-- The first character of that name. -/
def npc? (level : Level) (name : String) : Option Npc := level.npcs.find? (·.name == name)

end Level

end Sidescroller
