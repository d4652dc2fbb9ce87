import Sidescroller.Binary32.Order
import Sidescroller.Plane
import Sidescroller.Rules.Basic

/-!
# The camera

The camera follows the player and stops at the ends of the level. Its scroll range has to be ordered
for that to have a meaning, so a `Camera` is scrolling rules whose range is ordered on both axes.
Rules with a NaN bound make no camera.
-/

namespace Sidescroller

/-- Scrolling rules with an ordered scroll range. -/
structure Camera where
  rules : Rules.Scrolling
  /-- The horizontal range is ordered. -/
  minX_le_maxX : rules.minX ≤ rules.maxX
  /-- The vertical range is ordered. -/
  minY_le_maxY : rules.minY ≤ rules.maxY

namespace Camera

/-- The camera of some scrolling rules, if their range is ordered. -/
def ofRules? (rules : Rules.Scrolling) : Option Camera :=
  if h : rules.minX ≤ rules.maxX ∧ rules.minY ≤ rules.maxY then some ⟨rules, h.1, h.2⟩ else none

/-- The upper left corner of a view that has the player in its middle. -/
def centered (camera : Camera) (player : Rect) : Vec2 :=
  ⟨player.center.x - camera.rules.viewportWidth / 2,
    player.center.y - camera.rules.viewportHeight / 2⟩

/-- The upper left corner of the view: the player in the middle, as far as the scroll range lets
the camera go on each axis. -/
def offset (camera : Camera) (player : Rect) : Vec2 :=
  let corner := camera.centered player
  ⟨Binary32.clamp camera.rules.minX camera.rules.maxX corner.x,
    Binary32.clamp camera.rules.minY camera.rules.maxY corner.y⟩

end Camera

end Sidescroller
