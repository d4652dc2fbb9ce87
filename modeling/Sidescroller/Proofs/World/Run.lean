import Sidescroller.Proofs.Level.Trigger
import Sidescroller.Proofs.Story.Session
import Sidescroller.World.Basic

/-!
# Runs of a world

What a run does to the story of a world. The story is the `Plot`: where the session is, the chapter
and the partner. `Happens` lists the six things that one command can do to it, each with the events
that report it; the body, the camera and the trigger decide which of them it is, and no more.

* `tick_happens` — one tick does one of the six things;
* `approachLogged_quiet` — an approach touches nothing of the plot, and the ticks in it, whose
  events are dropped, have none;
* `perform_happens` — so every command does one of the six things, and a run one after the other;
* `run_keeps` — what ticks and placements keep, a run keeps.
-/

namespace Sidescroller

namespace World

open Story (Session ConversationId Node Choice Departure Ending)

/-! ### Plots -/

/-- The part of a world that conversations can change, and the graph they follow. -/
structure Plot where
  /-- The nodes of the story. -/
  graph : Story.Graph
  /-- The place in the story. -/
  session : Session
  /-- The chapter. -/
  chapters : Story.Chapters
  /-- Who the player is talking to. -/
  partner : Option String

/-- The plot of a world. -/
def plot (world : World) : Plot where
  graph := world.graph
  session := world.session
  chapters := world.chapters
  partner := world.partner

/-- The events that report the end of a conversation. -/
def Plot.closing (plot : Plot) (ending : Ending) : List Event :=
  let after := (plot.chapters.record ending.completed).current
  .dialogueEnded ending.conversation ending.lastNode ending.reason ::
    if after = plot.chapters.current then [] else [.chapterAdvanced plot.chapters.current after]

/-- **What can happen to a plot**, and the events that report it. -/
inductive Happens (plot : Plot) : Plot → List Event → Prop
  /-- At most the highlight moves. -/
  | nothing (selected : Nat) :
    Happens plot { plot with session := { plot.session with selected } } []
  /-- Somebody has no node to start on. -/
  | unavailable (npc node : String) (hidle : plot.session.cursor = .idle) :
    Happens plot plot [.dialogueUnavailable npc node]
  /-- A conversation is opened. -/
  | opened (npc node : String) (hidle : plot.session.cursor = .idle)
      (hnode : plot.graph.contains node = true) :
    Happens plot
      { plot with
        session :=
          { plot.session with
            cursor := .active ⟨plot.session.nextConversation⟩ node
            selected := 0
            pending := []
            nextConversation := plot.session.nextConversation + 1 }
        partner := some npc }
      [.dialogueStarted ⟨plot.session.nextConversation⟩ npc node]
  /-- The conversation goes on with another node. -/
  | advanced {conversation : ConversationId} {node : Node} {choice : Option Choice}
      {session : Session} {departure : Departure} {next : String}
      (hleaves : Session.Leaves plot.graph plot.session conversation node choice session departure)
      (hnext : departure.transition = .continued next) :
    Happens plot { plot with session }
      (departure.items.map .itemGained ++ [.dialogueAdvanced next])
  /-- The conversation ends with the node that is left. -/
  | ended {conversation : ConversationId} {node : Node} {choice : Option Choice}
      {session : Session} {departure : Departure} {ending : Ending}
      (hleaves : Session.Leaves plot.graph plot.session conversation node choice session departure)
      (hending : departure.transition = .ended ending) :
    Happens plot
      { plot with session, chapters := plot.chapters.record ending.completed, partner := none }
      (departure.items.map .itemGained ++ plot.closing ending)
  /-- The player leaves the conversation. -/
  | cancelled {conversation : ConversationId} {node : String}
      (hactive : plot.session.cursor = .active conversation node) :
    Happens plot
      { plot with
        session := { plot.session with cursor := .idle, selected := 0, pending := [] }
        chapters := plot.chapters.record plot.session.pending
        partner := none }
      (plot.closing ⟨conversation, node, plot.session.pending, .cancelled⟩)

theorem Happens.refl (plot : Plot) : Happens plot plot [] := Happens.nothing plot.session.selected

/-- While no conversation is open, one may be opened, or there is nobody to open it with. -/
theorem Happens.of_idle {plot plot' : Plot} {events : List Event} (h : Happens plot plot' events)
    (hidle : plot.session.cursor = .idle) :
    events = [] ∨
      (∃ npc node, events = [.dialogueUnavailable npc node] ∧ plot' = plot) ∨
      ∃ npc node, events = [.dialogueStarted ⟨plot.session.nextConversation⟩ npc node] ∧
        plot'.session.cursor = .active ⟨plot.session.nextConversation⟩ node := by
  cases h with
  | nothing selected => exact Or.inl rfl
  | unavailable npc node hidle => exact Or.inr (Or.inl ⟨npc, node, rfl, rfl⟩)
  | opened npc node hidle hnode => exact Or.inr (Or.inr ⟨npc, node, rfl, rfl⟩)
  | advanced hleaves hnext => cases hidle.symm.trans hleaves.cursor_eq
  | ended hleaves hending => cases hidle.symm.trans hleaves.cursor_eq
  | cancelled hactive => cases hidle.symm.trans hactive

variable {world : World}

theorem inDialogue_eq_false_iff : world.inDialogue = false ↔ world.session.cursor = .idle := by
  unfold inDialogue Session.isActive
  cases world.session.cursor <;> simp

theorem inDialogue_of_active {conversation : ConversationId} {id : String}
    (h : world.session.cursor = .active conversation id) : world.inDialogue = true := by
  rw [inDialogue, Session.isActive, h]

/-! ### Ticks -/

theorem depart_happens {conversation : ConversationId} {node : Node} {choice : Option Choice}
    {session : Session} {departure : Departure}
    (hleaves :
      Session.Leaves world.graph world.session conversation node choice session departure) :
    Happens world.plot ({ world with session }.depart departure).1.plot
      ({ world with session }.depart departure).2 := by
  unfold depart
  cases htransition : departure.transition with
  | continued next => exact .advanced hleaves htransition
  | ended ending => exact .ended hleaves htransition

theorem highlight_eq (world : World) (intent : Intent) :
    ∃ selected, world.highlight intent = { world.session with selected } := by
  -- both keys may be pressed, and then they count one after the other
  obtain ⟨up, hup⟩ := world.session.moveSelection_eq world.graph (-1)
  obtain ⟨down, hdown⟩ := world.session.moveSelection_eq world.graph 1
  obtain ⟨both, hboth⟩ :=
    Session.moveSelection_eq { world.session with selected := up } world.graph 1
  unfold highlight
  dsimp only
  cases intent.menuUp <;> cases intent.menuDown <;>
    simp only [Bool.false_eq_true, if_false, if_true]
  · exact ⟨_, rfl⟩
  · exact ⟨down, hdown⟩
  · exact ⟨up, hup⟩
  · rw [hup]
    exact ⟨both, hboth⟩

theorem pick_cases (world : World) (key : Option UInt8) :
    world.pick key = none ∨
      ∃ conversation node choice session departure, world.pick key = some (session, departure) ∧
        Session.Leaves world.graph world.session conversation node choice session departure := by
  unfold pick
  cases key with
  | none => exact Or.inl rfl
  | some key =>
    rcases world.session.chooseNumeric_cases world.graph key with
      h | ⟨conversation, node, choice, session, departure, h, -, -, hleaves⟩
    · simp only [h]
      exact Or.inl trivial
    · simp only [h]
      exact Or.inr ⟨conversation, node, some choice, session, departure, rfl, hleaves⟩

theorem converse_happens (world : World) (intent : Intent) :
    Happens world.plot (world.converse intent).1.plot (world.converse intent).2 := by
  unfold converse
  -- the keys in the order in which they count
  by_cases hcancel : intent.cancel = true
  · rw [if_pos hcancel]
    rcases world.session.cancel_cases with ⟨-, h⟩ | ⟨conversation, node, hactive, h⟩
    · simp only [h]
      exact Happens.refl world.plot
    · simp only [h]
      exact .cancelled hactive
  · rw [if_neg hcancel]
    rcases world.pick_cases intent.numeric with
      h | ⟨conversation, node, choice, session, departure, h, hleaves⟩
    · -- no number key, or one that numbers no choice
      simp only [h]
      by_cases hconfirm : intent.confirm = true
      · rw [if_pos hconfirm]
        rcases world.session.confirm_cases world.graph with
          ⟨error, h⟩ | ⟨conversation, node, choice, session, departure, h, -, -, hleaves⟩
        · simp only [h]
          exact Happens.refl world.plot
        · simp only [h]
          exact depart_happens hleaves
      · rw [if_neg hconfirm]
        obtain ⟨selected, h⟩ := world.highlight_eq intent
        rw [h]
        exact .nothing selected
    · simp only [h]
      exact depart_happens hleaves

/-- **An attempt to talk**: nobody is near, or somebody who has no node to start on, or a
conversation is opened. -/
theorem openDialogue_cases (world : World) :
    (∃ trigger, world.openDialogue = ({ world with trigger }, [])) ∨
      (∃ trigger, ∃ npc ∈ world.level.npcs, world.session.cursor = .idle ∧
        world.graph.contains npc.entry = false ∧
        world.openDialogue =
          ({ world with trigger }, [.dialogueUnavailable npc.name npc.entry])) ∨
      ∃ trigger, ∃ npc ∈ world.level.npcs, world.session.cursor = .idle ∧
        world.graph.contains npc.entry = true ∧
        world.openDialogue =
          ({ world with
              trigger
              session :=
                { world.session with
                  cursor := .active ⟨world.session.nextConversation⟩ npc.entry
                  selected := 0
                  pending := []
                  nextConversation := world.session.nextConversation + 1 }
              partner := some npc.name },
            [.dialogueStarted ⟨world.session.nextConversation⟩ npc.name npc.entry]) := by
  unfold openDialogue
  cases hfire : world.trigger.fire world.body.rect world.level.npcs world.inDialogue with
  | mk trigger npc? =>
    cases npc? with
    | none => exact Or.inl ⟨trigger, rfl⟩
    | some npc =>
      obtain ⟨hmode, hnpc⟩ := Trigger.of_fire hfire
      have hidle := inDialogue_eq_false_iff.1 hmode
      -- nothing is open, so it is the node that counts
      cases hnode : world.graph.contains npc.entry with
      | false =>
        simp only [Session.start_of_missing hidle hnode]
        exact Or.inr (Or.inl ⟨trigger, npc, hnpc, hidle, hnode, rfl⟩)
      | true =>
        simp only [Session.start_of_contains hidle hnode]
        exact Or.inr (Or.inr ⟨trigger, npc, hnpc, hidle, hnode, rfl⟩)

theorem openDialogue_happens (world : World) :
    Happens world.plot world.openDialogue.1.plot world.openDialogue.2 := by
  rcases world.openDialogue_cases with
    ⟨trigger, h⟩ | ⟨trigger, npc, -, hidle, -, h⟩ | ⟨trigger, npc, -, hidle, hnode, h⟩
  · rw [h]
    exact Happens.refl world.plot
  · rw [h]
    exact .unavailable npc.name npc.entry hidle
  · rw [h]
    exact .opened npc.name npc.entry hidle hnode

theorem roam_happens (world : World) (intent : Intent) (dt : Float32) :
    Happens world.plot (world.roam intent dt).1.plot (world.roam intent dt).2 := by
  unfold roam
  dsimp only
  -- wherever the body gets to
  generalize
    (Collision.step world.level.platforms world.body intent.heading intent.jump dt).1 = body
  split_ifs
  · exact openDialogue_happens { world with body }
  · exact Happens.refl world.plot

/-- **One tick** does one of the things that can happen. -/
theorem tick_happens (world : World) (intent : Intent) (dt : Float32) :
    Happens world.plot (world.tick intent dt).1.plot (world.tick intent dt).2 := by
  unfold tick
  dsimp only
  -- what the trigger and the camera do is no matter of the plot
  cases hmode : inDialogue { world with trigger := world.trigger.tick dt }
  · simp only [Bool.false_eq_true, if_false]
    exact roam_happens { world with trigger := world.trigger.tick dt } intent dt
  · simp only [if_true]
    exact converse_happens { world with trigger := world.trigger.tick dt } intent

/-! ### Putting the player somewhere -/

theorem plot_place (world : World) (position : Vec2) :
    (world.place position).plot = world.plot := by
  unfold place
  split_ifs <;> rfl

/-- A placement opens and closes nothing. -/
theorem inDialogue_place (world : World) (position : Vec2) :
    (world.place position).inDialogue = world.inDialogue :=
  congrArg (fun plot => plot.session.isActive) (world.plot_place position)

/-- A tick with nothing pressed does nothing while no conversation is open. -/
theorem tick_idle_quiet (hmode : world.inDialogue = false) (dt : Float32) :
    (world.tick Intent.idle dt).1.plot = world.plot ∧ (world.tick Intent.idle dt).2 = [] := by
  unfold tick
  change inDialogue { world with trigger := world.trigger.tick dt } = false at hmode
  dsimp only
  rw [hmode]
  exact ⟨rfl, rfl⟩

/-- `settleAmong` together with the events of its ticks. -/
def settleAmongLogged (world : World) (reach : Rect) (dt : Float32) :
    List Vec2 → (World × Bool) × List Event
  | [] => ((world, false), [])
  | position :: positions =>
    if world.inDialogue then ((world, false), [])
    else
      let (world, events) := (world.place position).tick Intent.idle dt
      if world.body.rect.overlaps reach then ((world, true), events)
      else
        let (answer, later) := world.settleAmongLogged reach dt positions
        (answer, events ++ later)

/-- `approach` together with the events of its ticks. -/
def approachLogged (world : World) (name : String) (dt : Float32) :
    (World × Bool) × List Event :=
  match world.level.npc? name with
  | none => ((world, false), [])
  | some npc => world.settleAmongLogged (world.trigger.reach npc) dt (world.besides npc)

theorem settleAmongLogged_fst (world : World) (reach : Rect) (dt : Float32)
    (positions : List Vec2) :
    (world.settleAmongLogged reach dt positions).1 = world.settleAmong reach dt positions := by
  induction positions generalizing world with
  | nil => rfl
  | cons position positions ih =>
    unfold settleAmongLogged settleAmong
    dsimp only
    split_ifs
    · rfl
    · rfl
    · exact ih _

theorem approachLogged_fst (world : World) (name : String) (dt : Float32) :
    (world.approachLogged name dt).1 = world.approach name dt := by
  unfold approachLogged approach
  cases world.level.npc? name with
  | none => rfl
  | some npc => exact world.settleAmongLogged_fst _ dt _

theorem settleAmongLogged_quiet (world : World) (reach : Rect) (dt : Float32)
    (positions : List Vec2) :
    (world.settleAmongLogged reach dt positions).1.1.plot = world.plot ∧
      (world.settleAmongLogged reach dt positions).2 = [] := by
  induction positions generalizing world with
  | nil => exact ⟨rfl, rfl⟩
  | cons position positions ih =>
    unfold settleAmongLogged
    dsimp only
    cases hmode : world.inDialogue
    · -- a world that is put somewhere has no conversation open either
      have hplaced : (world.place position).inDialogue = false :=
        (world.inDialogue_place position).trans hmode
      obtain ⟨hplot, hevents⟩ := tick_idle_quiet hplaced dt
      rw [plot_place] at hplot
      simp only [Bool.false_eq_true, if_false]
      split_ifs
      · exact ⟨hplot, hevents⟩
      · obtain ⟨hlast, hlater⟩ := ih ((world.place position).tick Intent.idle dt).1
        exact ⟨hlast.trans hplot, by rw [hevents, hlater, List.append_nil]⟩
    · exact ⟨rfl, rfl⟩

/-- **An approach is quiet**: the plot stays as it is, and no tick in it has an event. -/
theorem approachLogged_quiet (world : World) (name : String) (dt : Float32) :
    (world.approachLogged name dt).1.1.plot = world.plot ∧
      (world.approachLogged name dt).2 = [] := by
  unfold approachLogged
  cases world.level.npc? name with
  | none => exact ⟨rfl, rfl⟩
  | some npc => exact world.settleAmongLogged_quiet _ dt _

theorem plot_approach (world : World) (name : String) (dt : Float32) :
    (world.approach name dt).1.plot = world.plot := by
  rw [← approachLogged_fst]
  exact (world.approachLogged_quiet name dt).1

/-! ### Runs -/

/-- What a world can be told to do. -/
inductive Command where
  | tick (intent : Intent) (dt : Float32)
  | place (position : Vec2)
  | approach (name : String) (dt : Float32)

/-- Carries out a command. A tick, and nothing else, returns events. -/
def perform (world : World) : Command → World × Option (List Event)
  | .tick intent dt => ((world.tick intent dt).1, some (world.tick intent dt).2)
  | .place position => (world.place position, none)
  | .approach name dt => ((world.approach name dt).1, none)

/-- Carries out commands one after the other. Returns the events of each tick. -/
def run (world : World) : List Command → World × List (List Event)
  | [] => (world, [])
  | command :: rest =>
    let (next, events?) := world.perform command
    let (last, ticks) := next.run rest
    (last, events?.toList ++ ticks)

theorem run_append (world : World) (first second : List Command) :
    (world.run (first ++ second)).1 = ((world.run first).1.run second).1 := by
  induction first generalizing world with
  | nil => rfl
  | cons command rest ih => exact ih (world.perform command).1

theorem events_run_append (world : World) (first second : List Command) :
    (world.run (first ++ second)).2 =
      (world.run first).2 ++ ((world.run first).1.run second).2 := by
  induction first generalizing world with
  | nil => rfl
  | cons command rest ih =>
    show (world.perform command).2.toList ++ ((world.perform command).1.run (rest ++ second)).2 = _
    rw [ih, ← List.append_assoc]
    rfl

/-! ### What all commands keep

An approach is made of placements and ticks. So what placements and ticks keep, all commands keep,
and nothing has to be said about approaches again. -/

section Keeps

variable {P : World → Prop}

theorem settleAmong_keeps (htick : ∀ world intent dt, P world → P (world.tick intent dt).1)
    (hplace : ∀ world position, P world → P (world.place position)) (h : P world) (reach : Rect)
    (dt : Float32) (positions : List Vec2) : P (world.settleAmong reach dt positions).1 := by
  induction positions generalizing world with
  | nil => exact h
  | cons position positions ih =>
    have hsettled : P ((world.place position).tick Intent.idle dt).1 :=
      htick _ _ _ (hplace _ _ h)
    unfold settleAmong
    dsimp only
    split_ifs
    · exact h
    · exact hsettled
    · exact ih hsettled

theorem perform_keeps (htick : ∀ world intent dt, P world → P (world.tick intent dt).1)
    (hplace : ∀ world position, P world → P (world.place position)) (h : P world)
    (command : Command) : P (world.perform command).1 := by
  cases command with
  | tick intent dt => exact htick _ _ _ h
  | place position => exact hplace _ _ h
  | approach name dt =>
    change P (world.approach name dt).1
    unfold approach
    cases world.level.npc? name with
    | none => exact h
    | some npc => exact settleAmong_keeps htick hplace h _ dt _

/-- **What ticks and placements keep** a run keeps. -/
theorem run_keeps (htick : ∀ world intent dt, P world → P (world.tick intent dt).1)
    (hplace : ∀ world position, P world → P (world.place position)) (h : P world)
    (commands : List Command) : P (world.run commands).1 := by
  induction commands generalizing world with
  | nil => exact h
  | cons command rest ih => exact ih (perform_keeps htick hplace h command)

end Keeps

/-! ### What happens in a command -/

/-- **One command** does one of the things that can happen. -/
theorem perform_happens (world : World) (command : Command) :
    Happens world.plot (world.perform command).1.plot ((world.perform command).2.getD []) := by
  cases command with
  | tick intent dt => exact world.tick_happens intent dt
  | place position =>
    change Happens world.plot (world.place position).plot []
    rw [plot_place]
    exact Happens.refl world.plot
  | approach name dt =>
    change Happens world.plot (world.approach name dt).1.plot []
    rw [plot_approach]
    exact Happens.refl world.plot

/-- **A world at its beginning**, if it can be made. -/
theorem eq_of_create {character : Character} {rules : Rules} {level : Level}
    {script : Story.Script} (h : create character rules level script = .ok world) :
    ∃ graph chapters camera, script.setUp character.name = .ok (graph, chapters) ∧
      Camera.ofRules? rules.scrolling = some camera ∧
      world =
        { character, level, camera, graph, chapters
          body := Body.spawn rules.movement
          cameraOffset := camera.offset (Body.spawn rules.movement).rect
          trigger := Trigger.ofRules rules.interaction
          session := Session.fresh
          partner := none } := by
  unfold create at h
  -- a world is there only if neither the story nor the camera was refused
  cases hsetUp : script.setUp character.name with
  | error error =>
    rw [hsetUp] at h
    cases h
  | ok story =>
    rw [hsetUp] at h
    cases hcamera : Camera.ofRules? rules.scrolling with
    | none =>
      rw [hcamera] at h
      cases h
    | some camera =>
      rw [hcamera] at h
      obtain rfl := Except.ok.inj h
      exact ⟨story.1, story.2, camera, rfl, rfl, rfl⟩

theorem plot_of_create {character : Character} {rules : Rules} {level : Level}
    {script : Story.Script} (h : create character rules level script = .ok world) :
    ∃ graph chapters, script.setUp character.name = .ok (graph, chapters) ∧
      world.plot = ⟨graph, Session.fresh, chapters, none⟩ := by
  obtain ⟨graph, chapters, camera, hsetUp, -, rfl⟩ := eq_of_create h
  exact ⟨graph, chapters, hsetUp, rfl⟩

/-! ### A small world -/

/-- Somebody stands where the player starts. -/
def porch : Level where
  platforms := []
  npcs := [{ name := "Guard", bounds := ⟨100, 340, 40, 60⟩, entry := "gate", color := ⟨0, 0, 0⟩ }]

/-- A gate, which is a milestone and has a key to give, and the hall behind it. -/
def twoRooms : Story.Script where
  outline := { initial := "arrival", milestones := ["gate", "hall"], labels := ["courtyard"] }
  nodes :=
    [{ id := "gate"
       speaker := "Guard"
       text := "Come in."
       choices := [{ text := "Thanks.", next := some "hall" }]
       grantsItem := some "key" },
      { id := "hall", speaker := "Guard", text := "Wait here." }]

/-- The player goes through the gate and leaves in the hall. -/
def visit : List Command :=
  [.tick { interact := true } 0.01, .tick { confirm := true } 0.01, .tick { cancel := true } 0.01]

/-- What is known of a world that can be made, as a check finds it. -/
theorem exists_created {made : Except SetupError World} {p : World → Bool}
    (h : made.toOption.any p = true) : ∃ world, made = .ok world ∧ p world = true := by
  cases made with
  | error error => cases h
  | ok world => exact ⟨world, rfl, h⟩

end World

end Sidescroller
