import Sidescroller.Level.Basic

/-!
# The campus

The courtyard of the academy: a long slab of ground, a run of steps, three balconies, and six people
to talk to.
-/

namespace Sidescroller.Level

namespace Campus

/-- The height of the ground. -/
def ground : Float32 := 420

/-- The slab of ground. -/
def slab : List Rect := [⟨-400, ground, 2200, 120⟩]

/-- The steps above the ground. -/
def steps : List Rect :=
  [⟨200, 320, 180, 24⟩, ⟨440, 260, 160, 24⟩, ⟨700, 340, 220, 24⟩, ⟨1020, 280, 180, 24⟩,
    ⟨1320, 360, 220, 24⟩]

/-- The balconies on the right. -/
def balconies : List Rect :=
  [⟨1650, 220, 300, 20⟩, ⟨2050, 300, 200, 20⟩, ⟨2400, 380, 400, 20⟩]

/-- A person whose upper left corner is at `(x, y)`; all are of one size. -/
def person (name : String) (x y : Float32) (entry : String) (color : Color) : Npc :=
  ⟨name, ⟨x, y, 40, 80⟩, entry, color⟩

/-- The people of the campus, from left to right. -/
def people : List Npc :=
  [person "Principal Weems" 600 360 "intro_welcome" ⟨160, 120, 200⟩,
    person "Enid" 900 360 "enid_room" ⟨220, 160, 200⟩,
    person "Ajax" 1300 360 "ajax_greenhouse" ⟨150, 200, 150⟩,
    person "Yoko" 1700 300 "yoko_duel" ⟨200, 80, 80⟩,
    person "Wednesday" 2300 360 "wednesday_pact" ⟨60, 60, 80⟩,
    person "Bianca" 2600 360 "bianca_finale" ⟨80, 120, 200⟩]

end Campus

/-- The campus of the academy. -/
def campus : Level where
  platforms := (Campus.slab ++ Campus.steps ++ Campus.balconies).map Platform.mk
  npcs := Campus.people

end Sidescroller.Level
