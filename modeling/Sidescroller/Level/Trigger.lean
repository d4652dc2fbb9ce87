import Sidescroller.Binary32.Order
import Sidescroller.Level.Basic
import Sidescroller.Rules.Basic

/-!
# The talk trigger

What decides that a conversation opens: the player is near enough to somebody, and enough time has
passed since the last time, so that one key press does not open the same conversation twice.
-/

namespace Sidescroller

/-- The trigger in front of conversations. -/
structure Trigger where
  rules : Rules.Interaction
  /-- Seconds until it may fire again. -/
  remaining : Float32
  deriving DecidableEq, Inhabited

namespace Trigger

/-- A trigger that may fire at once. -/
def ofRules (rules : Rules.Interaction) : Trigger := ⟨rules, 0⟩

/-- Whether the trigger may fire. -/
def ready (trigger : Trigger) : Bool := trigger.remaining ≤ 0

/-- The space in which the player can talk to a character. -/
def reach (trigger : Trigger) (npc : Npc) : Rect := npc.bounds.inflate trigger.rules.margin

/-- Lets `dt` seconds pass. The remaining time stops at zero. -/
def tick (trigger : Trigger) (dt : Float32) : Trigger :=
  { trigger with remaining := Binary32.greater (trigger.remaining - dt) 0 }

/-- The first character within reach of the player. -/
def nearby? (trigger : Trigger) (player : Rect) (npcs : List Npc) : Option Npc :=
  npcs.find? fun npc => player.overlaps (trigger.reach npc)

/-- Tries to start talking. Nothing happens while a conversation is open (`busy`) or the trigger is
not ready; otherwise the first character within reach is found, and the waiting time starts. -/
def fire (trigger : Trigger) (player : Rect) (npcs : List Npc) (busy : Bool) :
    Trigger × Option Npc :=
  if busy || !trigger.ready then (trigger, none)
  else match trigger.nearby? player npcs with
    | none => (trigger, none)
    | some npc => ({ trigger with remaining := trigger.rules.cooldown }, some npc)

end Trigger

end Sidescroller
