import Sidescroller.Player.Character
import Sidescroller.Player.Collision
import Sidescroller.Rules.Document

/-!
# The player in documents
-/

namespace Sidescroller

/-- The name of a direction. -/
def Heading.name : Heading → String
  | left => "Left"
  | idle => "Idle"
  | right => "Right"

/-- Reads one of several values that are told by their names alone. -/
def Datum.oneOf? {α : Type} (name : α → String) (values : List α) : Datum → Option α :=
  Datum.alternative? fun given payload =>
    match payload with
    | none | some .null => values.find? fun value => name value == given
    | some _ => none

def Heading.ofDatum? : Datum → Option Heading := Datum.oneOf? name [left, idle, right]

/-- Reads what was pressed during a tick. -/
def Intent.ofDatum? (surplus : Surplus) (datum : Datum) : Option Intent := do
  let r ← Record.ofDatum? surplus
    ["move_axis", "jump_pressed", "interact_pressed", "menu_up", "menu_down", "numeric_choice",
      "confirm_pressed", "cancel_pressed"] datum
  return {
    heading := ← r.need? "move_axis" Heading.ofDatum?
    jump := ← r.need? "jump_pressed" Datum.boolean?
    interact := ← r.need? "interact_pressed" Datum.boolean?
    menuUp := ← r.need? "menu_up" Datum.boolean?
    menuDown := ← r.need? "menu_down" Datum.boolean?
    numeric := ← r.orElse? "numeric_choice" (Datum.optional? Datum.byte?) none
    confirm := ← r.need? "confirm_pressed" Datum.boolean?
    cancel := ← r.need? "cancel_pressed" Datum.boolean? }

/-- What was pressed during a tick, as a datum. -/
def Intent.toDatum (intent : Intent) : Datum :=
  .table [("move_axis", .text intent.heading.name), ("jump_pressed", .boolean intent.jump),
    ("interact_pressed", .boolean intent.interact), ("menu_up", .boolean intent.menuUp),
    ("menu_down", .boolean intent.menuDown),
    ("numeric_choice", match intent.numeric with
      | none => .null
      | some key => .integer key.toNat),
    ("confirm_pressed", .boolean intent.confirm), ("cancel_pressed", .boolean intent.cancel)]

/-- The name of a trait. -/
def Trait.name : Trait → String
  | hair => "Hair"
  | race => "Race"
  | outfit => "Outfit"

def Trait.ofDatum? : Datum → Option Trait := Datum.oneOf? name [hair, race, outfit]

def Trait.toDatum (trait : Trait) : Datum := .text trait.name

/-- Reads a character. The name is taken as it is. -/
def Character.ofDatum? (surplus : Surplus) (datum : Datum) : Option Character := do
  let r ← Record.ofDatum? surplus ["name", "hair_index", "race_index", "outfit_index"] datum
  return ⟨← r.need? "name" Datum.text?, ← r.need? "hair_index" Datum.word?,
    ← r.need? "race_index" Datum.word?, ← r.need? "outfit_index" Datum.word?⟩

def Character.toDatum (character : Character) : Datum :=
  .table [("name", .text character.name), ("hair_index", .integer character.hair.toNat),
    ("race_index", .integer character.race.toNat),
    ("outfit_index", .integer character.outfit.toNat)]

def Body.ofDatum? (surplus : Surplus) (datum : Datum) : Option Body := do
  let r ← Record.ofDatum? surplus ["position", "velocity", "size", "on_ground", "tuning"] datum
  return ⟨← r.need? "position" (Vec2.ofDatum? surplus),
    ← r.need? "velocity" (Vec2.ofDatum? surplus),
    ← r.need? "size" (Vec2.ofDatum? surplus), ← r.need? "on_ground" Datum.boolean?,
    ← r.need? "tuning" (Rules.Movement.ofDatum? surplus)⟩

def Body.toDatum (body : Body) : Datum :=
  .table [("position", body.position.toDatum), ("velocity", body.velocity.toDatum),
    ("size", body.size.toDatum), ("on_ground", .boolean body.onGround),
    ("tuning", body.tuning.toDatum)]

def Contacts.ofDatum? (surplus : Surplus) (datum : Datum) : Option Contacts := do
  let r ← Record.ofDatum? surplus ["wall", "landed", "head_bump"] datum
  return ⟨← r.need? "wall" Datum.boolean?, ← r.need? "landed" Datum.boolean?,
    ← r.need? "head_bump" Datum.boolean?⟩

/-- What a body touched, as a datum. -/
def Contacts.toDatum (contacts : Contacts) : Datum :=
  .table [("wall", .boolean contacts.wall), ("landed", .boolean contacts.landed),
    ("head_bump", .boolean contacts.headBump)]

end Sidescroller
