import Sidescroller.Rules.Basic

/-!
# Rules in documents

Every field has a default, so that a document only names what it changes; what it says is laid over
the rules of the campus. A field that is missing from a part is read as its own default, and a part
that is missing as the part that is built with no field given.
-/

namespace Sidescroller

namespace Rules

def Movement.ofDatum? (surplus : Surplus) (datum : Datum) : Option Movement := do
  let r ← Record.ofDatum? surplus
    ["width", "height", "spawn", "speed", "jump_force", "gravity", "terminal_velocity"] datum
  return {
    width := ← r.orElse? "width" Datum.float? Default.bodyWidth
    height := ← r.orElse? "height" Datum.float? Default.bodyHeight
    spawn := ← r.orElse? "spawn" (Vec2.ofDatum? surplus) Default.spawn
    speed := ← r.orElse? "speed" Datum.float? Default.speed
    jumpForce := ← r.orElse? "jump_force" Datum.float? Default.jumpForce
    gravity := ← r.orElse? "gravity" Datum.float? Default.gravity
    terminalVelocity := ← r.orElse? "terminal_velocity" Datum.float? Default.terminalVelocity }

/-- How the player moves, as a datum. -/
def Movement.toDatum (m : Movement) : Datum :=
  .table [("width", .float m.width), ("height", .float m.height), ("spawn", m.spawn.toDatum),
    ("speed", .float m.speed), ("jump_force", .float m.jumpForce), ("gravity", .float m.gravity),
    ("terminal_velocity", .float m.terminalVelocity)]

def Scrolling.ofDatum? (surplus : Surplus) (datum : Datum) : Option Scrolling := do
  let r ← Record.ofDatum? surplus
    ["viewport_width", "viewport_height", "min_x", "max_x", "min_y", "max_y"] datum
  return {
    viewportWidth := ← r.orElse? "viewport_width" Datum.float? Default.viewportWidth
    viewportHeight := ← r.orElse? "viewport_height" Datum.float? Default.viewportHeight
    minX := ← r.orElse? "min_x" Datum.float? Default.minX
    maxX := ← r.orElse? "max_x" Datum.float? Default.maxX
    minY := ← r.orElse? "min_y" Datum.float? Default.minY
    maxY := ← r.orElse? "max_y" Datum.float? Default.maxY }

/-- What the camera shows, as a datum. -/
def Scrolling.toDatum (s : Scrolling) : Datum :=
  .table [("viewport_width", .float s.viewportWidth), ("viewport_height", .float s.viewportHeight),
    ("min_x", .float s.minX), ("max_x", .float s.maxX), ("min_y", .float s.minY),
    ("max_y", .float s.maxY)]

/-- Reads when a character can be talked to. -/
def Interaction.ofDatum? (surplus : Surplus) (datum : Datum) : Option Interaction := do
  let r ← Record.ofDatum? surplus ["margin", "cooldown"] datum
  return {
    margin := ← r.orElse? "margin" Datum.float? Default.margin
    cooldown := ← r.orElse? "cooldown" Datum.float? Default.cooldown }

/-- When a character can be talked to, as a datum. -/
def Interaction.toDatum (i : Interaction) : Datum :=
  .table [("margin", .float i.margin), ("cooldown", .float i.cooldown)]

def ofDatum? (surplus : Surplus) (datum : Datum) : Option Rules := do
  let r ← Record.ofDatum? surplus ["movement", "camera", "interaction"] datum
  return {
    movement := ← r.orElse? "movement" (Movement.ofDatum? surplus) {}
    scrolling := ← r.orElse? "camera" (Scrolling.ofDatum? surplus) {}
    interaction := ← r.orElse? "interaction" (Interaction.ofDatum? surplus) {} }

def toDatum (rules : Rules) : Datum :=
  .table [("movement", rules.movement.toDatum), ("camera", rules.scrolling.toDatum),
    ("interaction", rules.interaction.toDatum)]

end Rules

end Sidescroller
