import Sidescroller.Story.Session

/-!
# Events

What happened during a tick, for whoever shows the world.
-/

namespace Sidescroller.World

/-- Something that happened during a tick. -/
inductive Event where
  | dialogueStarted (conversation : Story.ConversationId) (npc node : String)
  /-- The conversation went on to another node. -/
  | dialogueAdvanced (node : String)
  /-- An item came into the inventory. -/
  | itemGained (item : String)
  | dialogueEnded (conversation : Story.ConversationId) (lastNode : String)
    (reason : Story.EndReason)
  /-- A conversation led to another chapter. -/
  | chapterAdvanced (before after : String)
  /-- A character has no node to start on. -/
  | dialogueUnavailable (npc node : String)
  deriving DecidableEq, Inhabited

namespace Event

/-- The kind of an event in one word. -/
def kind : Event → String
  | dialogueStarted _ _ _ => "dialogue_started"
  | dialogueAdvanced _ => "dialogue_advanced"
  | itemGained _ => "item_gained"
  | dialogueEnded _ _ _ => "dialogue_ended"
  | chapterAdvanced _ _ => "chapter_advanced"
  | dialogueUnavailable _ _ => "dialogue_unavailable"

end Event

end Sidescroller.World
