import Sidescroller.Journal
import Sidescroller.Level.Campus
import Sidescroller.Story.Academy
import Sidescroller.World.Document

/-!
# The tour

A playthrough that plays itself: it goes to everybody on the campus, in order, and confirms whatever
is highlighted until the conversation ends. `Tour.run` returns the world after it and the journal.
-/

namespace Sidescroller.Tour

/-- The span of a tick. -/
def frame : Float32 := 1 / 60

/-- The number of ticks that are waited before somebody is approached, so that the talk trigger is
ready again. -/
def pause : Nat := 40

/-- The number of ticks after which a conversation is given up. -/
def patience : Nat := 32

/-- A run so far: the world, the events since somebody was approached, and the journal. -/
structure Progress where
  world : World
  /-- The events since somebody was approached. -/
  events : List World.Event
  journal : List Journal.Entry

/-- The entry for a world that has been made. -/
def createdEntry (world : World) : Journal.Entry where
  severity := .info
  source := "story_engine::world"
  message := "Story world created"
  fields :=
    [("student", .bare world.character.name),
      ("heritage", .quoted (world.character.resolve .race).label),
      ("nodes", .count world.graph.size), ("npcs", .count world.level.npcs.length)]

/-- The entry for a change of the chapter. -/
def turnEntry (turn : Story.Chapters.Turn) : Journal.Entry where
  severity := .info
  source := "story_engine::chapter"
  message := "Chapter advanced"
  fields :=
    [("from", .bare turn.before), ("to", .quoted turn.after),
      ("milestone", .quoted turn.milestone)]

/-- The entry for an event, if it is worth noting. -/
def noteOf? (npc : String) : World.Event → Option Journal.Entry
  | .itemGained item =>
    some ⟨.info, "headless_playthrough", "Item gained", [("npc", .bare npc), ("item", .bare item)]⟩
  | .chapterAdvanced before after =>
    some ⟨.info, "headless_playthrough", "Chapter advanced",
      [("npc", .bare npc), ("from", .bare before), ("to", .bare after)]⟩
  | _ => none

/-- The entry for somebody who cannot be reached. -/
def skippedEntry (npc : String) : Journal.Entry :=
  ⟨.warn, "headless_playthrough", "NPC out of reach; skipping", [("npc", .bare npc)]⟩

/-- The changes of the chapter in a tick: there are some if a conversation ended in it, by the nodes
that were completed in that conversation. -/
def turns (before after : World) : List Story.Chapters.Turn :=
  if before.inDialogue && !after.inDialogue then
    before.chapters.turns
      (before.session.pending ++ after.session.completed.drop before.session.completed.length)
  else []

def tick (progress : Progress) (intent : Intent) : Progress :=
  let (world, events) := progress.world.tick intent frame
  { world
    events := progress.events ++ events
    journal := progress.journal ++ (turns progress.world world).map turnEntry }

/-- Waits for some ticks. -/
def wait : Nat → Progress → Progress
  | 0, progress => progress
  | n + 1, progress => wait n (tick progress Intent.idle)

/-- Confirms until the conversation ends, for at most some ticks. -/
def talk : Nat → Progress → Progress
  | 0, progress => progress
  | n + 1, progress =>
    if progress.world.inDialogue then talk n (tick progress { confirm := true }) else progress

/-- Goes to somebody and talks. -/
def visit (progress : Progress) (npc : String) : Progress :=
  let rested := wait pause progress
  match rested.world.approach npc frame with
  | (world, false) => { rested with world, journal := rested.journal ++ [skippedEntry npc] }
  | (world, true) =>
    let met := tick { rested with world, events := [] } { interact := true }
    let left := talk patience met
    { left with journal := left.journal ++ left.events.filterMap (noteOf? npc) }

/-- The tour of a world. -/
def run (world : World) : Progress :=
  (world.level.npcs.map Npc.name).foldl visit ⟨world, [], [createdEntry world]⟩

/-- The character that takes the tour: the second entry of each table. -/
def guest (name : String) : Character := (Character.ofName name).withIndices 1 1 1

/-- The tour of the campus, for a student of that name. -/
def ofStudent (name : String) : Except World.SetupError Progress :=
  (World.create (guest name) {} Level.campus Story.academy).map run

end Sidescroller.Tour
