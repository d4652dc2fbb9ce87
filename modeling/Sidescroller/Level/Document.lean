import Sidescroller.Level.Basic

/-!
# Levels in documents
-/

namespace Sidescroller

/-- Reads a colour, a list of its three parts. -/
def Color.ofDatum? : Datum → Option Color
  | .list [red, green, blue] => do return ⟨← red.byte?, ← green.byte?, ← blue.byte?⟩
  | _ => none

def Color.toDatum (color : Color) : Datum :=
  .list ([color.red, color.green, color.blue].map fun part => .integer part.toNat)

def Platform.ofDatum? (surplus : Surplus) (datum : Datum) : Option Platform := do
  let r ← Record.ofDatum? surplus ["bounds"] datum
  return ⟨← r.need? "bounds" (Rect.ofDatum? surplus)⟩

def Platform.toDatum (platform : Platform) : Datum := .table [("bounds", platform.bounds.toDatum)]

/-- Reads a character of a level. -/
def Npc.ofDatum? (surplus : Surplus) (datum : Datum) : Option Npc := do
  let r ← Record.ofDatum? surplus ["name", "bounds", "dialogue_node_id", "color"] datum
  return ⟨← r.need? "name" Datum.text?, ← r.need? "bounds" (Rect.ofDatum? surplus),
    ← r.need? "dialogue_node_id" Datum.text?, ← r.need? "color" Color.ofDatum?⟩

/-- A character of a level as a datum. -/
def Npc.toDatum (npc : Npc) : Datum :=
  .table [("name", .text npc.name), ("bounds", npc.bounds.toDatum),
    ("dialogue_node_id", .text npc.entry), ("color", npc.color.toDatum)]

def Level.ofDatum? (surplus : Surplus) (datum : Datum) : Option Level := do
  let r ← Record.ofDatum? surplus ["platforms", "npcs"] datum
  return ⟨← r.need? "platforms" (Datum.list? (Platform.ofDatum? surplus)),
    ← r.need? "npcs" (Datum.list? (Npc.ofDatum? surplus))⟩

def Level.toDatum (level : Level) : Datum :=
  .table [("platforms", .list (level.platforms.map Platform.toDatum)),
    ("npcs", .list (level.npcs.map Npc.toDatum))]

end Sidescroller
