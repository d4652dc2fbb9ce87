import Sidescroller.Story.Document
import Sidescroller.World.Basic

/-!
# Views

What is shown of a world at one moment, and the document that says so: the player and the camera,
the open conversation if there is one, and how far the playthrough has come.
-/

namespace Sidescroller.World

/-- An open conversation as it is shown. -/
structure DialogueView where
  /-- Which conversation it is. -/
  conversation : Story.ConversationId
  /-- Who the player is talking to. -/
  npc : Option String
  node : String
  speaker : String
  text : String
  emotion : Option String
  /-- The answers, in order. -/
  choices : List String
  /-- Position of the highlighted answer. -/
  selected : Nat
  deriving DecidableEq

/-- A world as it is shown. -/
structure View where
  player : Rect
  /-- Whether the player stands on something. -/
  onGround : Bool
  /-- Upper left corner of the camera's view. -/
  camera : Vec2
  dialogue : Option DialogueView
  studentName : String
  heritage : String
  chapter : String
  objective : String
  /-- The latest items, oldest first. -/
  inventoryPreview : List String
  deriving DecidableEq

/-- The number of items shown. -/
def previewLength : Nat := 2

/-- The open conversation as it is shown. -/
def dialogueView? (world : World) : Option DialogueView := do
  let node ← world.session.currentNode? world.graph
  let conversation ← world.session.conversation?
  return {
    conversation
    npc := world.partner
    node := node.id
    speaker := node.speaker
    text := node.text
    emotion := node.emotion
    choices := node.choices.map (·.text)
    selected := world.session.selected }

/-- The world as it is shown. -/
def view (world : World) : View where
  player := world.body.rect
  onGround := world.body.onGround
  camera := world.cameraOffset
  dialogue := world.dialogueView?
  studentName := world.character.name
  heritage := (world.character.resolve .race).label
  chapter := world.chapters.current
  objective := world.chapters.objective
  inventoryPreview := world.session.recentItems previewLength

/-! ### Documents -/

/-- An open conversation as a datum. -/
def DialogueView.toDatum (dialogue : DialogueView) : Datum :=
  .table [("conversation", dialogue.conversation.toDatum), ("npc", .ofOption dialogue.npc),
    ("node_id", .text dialogue.node), ("speaker", .text dialogue.speaker),
    ("text", .text dialogue.text), ("emotion", .ofOption dialogue.emotion),
    ("choices", .ofTexts dialogue.choices), ("selected_choice", .integer dialogue.selected)]

def View.toDatum (view : View) : Datum :=
  .table [("player", view.player.toDatum), ("on_ground", .boolean view.onGround),
    ("camera", view.camera.toDatum),
    ("dialogue", (view.dialogue.map DialogueView.toDatum).getD .null),
    ("student_name", .text view.studentName), ("heritage", .text view.heritage),
    ("chapter", .text view.chapter), ("objective", .text view.objective),
    ("inventory_preview", .ofTexts view.inventoryPreview)]

end Sidescroller.World
