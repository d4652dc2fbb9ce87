import Sidescroller.Level.Trigger
import Sidescroller.Player.Camera
import Sidescroller.Player.Character
import Sidescroller.Player.Collision
import Sidescroller.Story.Script
import Sidescroller.Story.Session
import Sidescroller.World.Event

/-!
# Worlds

A world is one playthrough. It has two modes: while a conversation is open, a tick goes to the
conversation and the body stands still; otherwise the body moves, and may open a conversation.

* `World.create` makes a world from a character, rules, a level and a script.
* `World.tick` lets time pass, with what the player pressed.
* `World.place` and `World.approach` put the player somewhere, for runs that are not played by hand.
-/

namespace Sidescroller

/-- One playthrough. -/
structure World where
  character : Character
  level : Level
  body : Body
  camera : Camera
  cameraOffset : Vec2
  trigger : Trigger
  graph : Story.Graph
  session : Story.Session
  chapters : Story.Chapters
  /-- Who the player is talking to. -/
  partner : Option String

namespace World

/-- What keeps a world from being made. -/
inductive SetupError where
  /-- The story cannot be set up. -/
  | story (error : Story.SetupError)
  /-- The scroll range is not ordered, so that there is no camera. -/
  | scrollRange
  deriving DecidableEq

/-- A world at its beginning. A fault of the story is reported before one of the camera. -/
def create (character : Character) (rules : Rules) (level : Level) (script : Story.Script) :
    Except SetupError World :=
  match script.setUp character.name with
  | .error error => .error (.story error)
  | .ok (graph, chapters) =>
    -- The camera comes last: its first look at the player needs an ordered range.
    match Camera.ofRules? rules.scrolling with
    | none => .error .scrollRange
    | some camera =>
      let body := Body.spawn rules.movement
      .ok {
        character, level, body, camera
        cameraOffset := camera.offset body.rect
        trigger := Trigger.ofRules rules.interaction
        graph
        session := Story.Session.fresh
        chapters
        partner := none }

/-- Whether a conversation is open. -/
def inDialogue (world : World) : Bool := world.session.isActive

/-- The world with its camera on the player. -/
def focus (world : World) : World :=
  { world with cameraOffset := world.camera.offset world.body.rect }

/-! ### Conversations -/

/-- Tries to open a conversation with somebody near. -/
def openDialogue (world : World) : World × List Event :=
  match world.trigger.fire world.body.rect world.level.npcs world.inDialogue with
  | (trigger, none) => ({ world with trigger }, [])
  | (trigger, some npc) =>
    -- The trigger has fired, and rests, even if there is nothing to say.
    match world.session.start world.graph npc.entry with
    | (session, .ok conversation) =>
      ({ world with trigger, session, partner := some npc.name },
        [.dialogueStarted conversation npc.name npc.entry])
    | (session, .error _) =>
      ({ world with trigger, session }, [.dialogueUnavailable npc.name npc.entry])

/-- Takes note of a conversation that has ended: the partner is let go, and the chapter moves on
over all nodes that were completed in it, so that the last milestone counts. -/
def finish (world : World) (ending : Story.Ending) : World × List Event :=
  let chapters := world.chapters.record ending.completed
  let turned :=
    if chapters.current = world.chapters.current then []
    else [.chapterAdvanced world.chapters.current chapters.current]
  ({ world with partner := none, chapters },
    .dialogueEnded ending.conversation ending.lastNode ending.reason :: turned)

/-- Takes note of a node that was left. -/
def depart (world : World) (departure : Story.Departure) : World × List Event :=
  let gained := departure.items.map Event.itemGained
  match departure.transition with
  | .continued node => (world, gained ++ [.dialogueAdvanced node])
  | .ended ending =>
    let (world, events) := world.finish ending
    (world, gained ++ events)

/-- The choice named by a number key, if one was pressed and names one. -/
def pick (world : World) (key : Option UInt8) : Option (Story.Session × Story.Departure) :=
  match key with
  | none => none
  | some key =>
    match world.session.chooseNumeric world.graph key with
    | (_, none) => none
    | (session, some departure) => some (session, departure)

/-- The session after the highlight was moved up, down, or both. -/
def highlight (world : World) (intent : Intent) : Story.Session :=
  let up (session : Story.Session) :=
    if intent.menuUp then session.moveSelection world.graph (-1) else session
  let down (session : Story.Session) :=
    if intent.menuDown then session.moveSelection world.graph 1 else session
  down (up world.session)

/-- A tick of a conversation. Leaving goes before a number key that names a choice, that before
confirming, and that before moving the highlight. -/
def converse (world : World) (intent : Intent) : World × List Event :=
  if intent.cancel then
    match world.session.cancel with
    | (session, none) => ({ world with session }, [])
    | (session, some ending) => { world with session }.finish ending
  else
    match world.pick intent.numeric with
    | some (session, departure) => { world with session }.depart departure
    | none =>
      -- A number key that names no choice leaves the other keys their turn.
      if intent.confirm then
        match world.session.confirm world.graph with
        | (session, .ok departure) => { world with session }.depart departure
        | (session, .error _) => ({ world with session }, [])
      else ({ world with session := world.highlight intent }, [])

/-! ### Ticks -/

/-- A tick of free movement. -/
def roam (world : World) (intent : Intent) (dt : Float32) : World × List Event :=
  let (body, _) :=
    Collision.step world.level.platforms world.body intent.heading intent.jump dt
  let world := { world with body }
  if intent.interact then world.openDialogue else (world, [])

/-- Lets `dt` seconds pass. Returns the world after them and what happened. -/
def tick (world : World) (intent : Intent) (dt : Float32) : World × List Event :=
  -- The waiting time of the trigger runs on during a conversation.
  let world := { world with trigger := world.trigger.tick dt }
  let (world, events) :=
    if world.inDialogue then world.converse intent else world.roam intent dt
  (world.focus, events)

/-! ### Putting the player somewhere -/

/-- Puts the player at a position, at rest. Nothing happens while a conversation is open. -/
def place (world : World) (position : Vec2) : World :=
  if world.inDialogue then world
  else
    { world with
      body := { world.body with position, velocity := Vec2.zero, onGround := false } }.focus

/-- Tries one position after the other: the player is put there and settles for one tick, which is
enough if the body then overlaps `reach`. -/
def settleAmong (world : World) (reach : Rect) (dt : Float32) : List Vec2 → World × Bool
  | [] => (world, false)
  | position :: positions =>
    if world.inDialogue then (world, false)
    else
      let (world, _) := (world.place position).tick Intent.idle dt
      if world.body.rect.overlaps reach then (world, true)
      else world.settleAmong reach dt positions

/-- Where the player can stand beside somebody, just touching: on the left, and on the right. -/
def besides (world : World) (npc : Npc) : List Vec2 :=
  [⟨npc.bounds.left - world.body.size.x + 6, npc.bounds.top⟩,
    ⟨npc.bounds.right - 6, npc.bounds.top⟩]

/-- Puts the player beside a character of the level. Returns whether the character is then within
reach. -/
def approach (world : World) (name : String) (dt : Float32) : World × Bool :=
  match world.level.npc? name with
  | none => (world, false)
  | some npc => world.settleAmong (world.trigger.reach npc) dt (world.besides npc)

end World

end Sidescroller
