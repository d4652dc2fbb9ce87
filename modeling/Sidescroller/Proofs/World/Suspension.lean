import Sidescroller.Proofs.World.Coherence
import Sidescroller.Proofs.World.Focus
import Sidescroller.Proofs.World.Keys

/-!
# Physics is suspended in a conversation

From the tick that opens a conversation to the end of the tick that closes it nothing moves: the
body and the view stay as they are, bit for bit, whatever is pressed and however much time passes,
and nobody can put the player elsewhere. Only the story goes on.

* `still_perform` — the frame of one command: no command moves anything;
* `Happens.active_or_ended` — a conversation stays open, or its end is among the events;
* `Suspended` — what is kept of the moment at which the conversation was opened;
  `Suspended.perform`, `Suspended.run` — every command, and so every run that does not end it,
  keeps it;
* `physics_suspended_of_run` — the whole conversation, and the keys that end it.
-/

namespace Sidescroller.World

open Story (Session ConversationId)

variable {world opened : World} {conversation : ConversationId}

/-! ### One command -/

theorem place_of_inDialogue (h : world.inDialogue = true) (position : Vec2) :
    world.place position = world := by
  unfold place
  rw [if_pos h]

/-- Nobody is approached in a conversation. -/
theorem approach_of_inDialogue (h : world.inDialogue = true) (name : String) (dt : Float32) :
    world.approach name dt = (world, false) := by
  unfold approach
  cases world.level.npc? name with
  | none => rfl
  | some npc =>
    -- there are two positions to try, and none of them is tried
    show world.settleAmong _ dt (_ :: _) = (world, false)
    unfold settleAmong
    rw [if_pos h]

/-- The view is looked for again in each tick, and found where it was. -/
theorem cameraOffset_tick_of_inDialogue (hfocused : world.Focused) (h : world.inDialogue = true)
    (intent : Intent) (dt : Float32) :
    (world.tick intent dt).1.cameraOffset = world.cameraOffset := by
  have hcamera : (world.tick intent dt).1.camera = world.camera :=
    congrArg Setting.camera (world.setting_tick intent dt)
  calc (world.tick intent dt).1.cameraOffset
    _ = (world.tick intent dt).1.camera.offset (world.tick intent dt).1.body.rect :=
      world.focused_tick intent dt
    _ = world.camera.offset world.body.rect := by rw [hcamera, body_tick_of_inDialogue h]
    _ = world.cameraOffset := hfocused.symm

/-- **No command moves anything** in a conversation. -/
theorem still_perform (hfocused : world.Focused) (h : world.inDialogue = true)
    (command : Command) :
    (world.perform command).1.body = world.body ∧
      (world.perform command).1.cameraOffset = world.cameraOffset := by
  cases command with
  | tick intent dt =>
    exact ⟨body_tick_of_inDialogue h intent dt,
      cameraOffset_tick_of_inDialogue hfocused h intent dt⟩
  | place position =>
    rw [perform, place_of_inDialogue h]
    exact ⟨rfl, rfl⟩
  | approach name dt =>
    rw [perform, approach_of_inDialogue h]
    exact ⟨rfl, rfl⟩

/-! ### From the opening on -/

variable {plot plot' : Plot} {events : List Event}

/-- An event that tells of an opening is about the conversation that is open then. -/
theorem Happens.active_of_started (h : Happens plot plot' events) {npc first : String}
    (hstarted : .dialogueStarted conversation npc first ∈ events) :
    plot'.session.cursor = .active conversation first := by
  obtain ⟨hidle, hnode, hstart⟩ := h.of_started hstarted
  rw [Session.start_of_contains hidle hnode] at hstart
  obtain ⟨hsession, hconversation⟩ := Prod.mk.inj hstart
  rw [← hsession, ← Except.ok.inj hconversation]

/-- **A conversation stays open**, or the events tell that it has ended. -/
theorem Happens.active_or_ended (h : Happens plot plot' events) {id : String}
    (hactive : plot.session.cursor = .active conversation id) :
    (∃ id', plot'.session.cursor = .active conversation id') ∨
      ∃ lastNode reason, .dialogueEnded conversation lastNode reason ∈ events := by
  cases h with
  | nothing selected => exact Or.inl ⟨id, hactive⟩
  | unavailable npc node hidle => cases hactive.symm.trans hidle
  | opened npc node hidle hnode => cases hactive.symm.trans hidle
  | advanced hleaves hnext =>
    obtain ⟨rfl, -⟩ := Story.Cursor.active.inj (hactive.symm.trans hleaves.cursor_eq)
    obtain ⟨-, -, hcursor, -⟩ := hleaves.of_continued hnext
    exact Or.inl ⟨_, hcursor⟩
  | ended hleaves hending =>
    obtain ⟨rfl, -⟩ := Story.Cursor.active.inj (hactive.symm.trans hleaves.cursor_eq)
    obtain ⟨reason, rfl, -⟩ := hleaves.of_ended hending
    exact Or.inr ⟨_, reason, List.mem_append_right _ List.mem_cons_self⟩
  | cancelled hactive' =>
    obtain ⟨rfl, rfl⟩ := Story.Cursor.active.inj (hactive.symm.trans hactive')
    exact Or.inr ⟨_, _, List.mem_cons_self⟩

/-- **Physics is suspended** since the conversation was opened: it is still open, and the player is
seen where the player was then. -/
structure Suspended (conversation : ConversationId) (opened world : World) : Prop where
  active : ∃ id, world.session.cursor = .active conversation id
  body_eq : world.body = opened.body
  cameraOffset_eq : world.cameraOffset = opened.cameraOffset

namespace Suspended

theorem inDialogue (h : Suspended conversation opened world) : world.inDialogue = true := by
  obtain ⟨id, hactive⟩ := h.active
  exact inDialogue_of_active hactive

/-- **A command** that does not end the conversation leaves physics suspended. -/
theorem perform (h : Suspended conversation opened world) (hfocused : world.Focused)
    {command : Command}
    (hgoes : ∀ lastNode reason,
      .dialogueEnded conversation lastNode reason ∉ (world.perform command).2.getD []) :
    Suspended conversation opened (world.perform command).1 := by
  obtain ⟨id, hactive⟩ := h.active
  obtain ⟨hbody, hcamera⟩ := still_perform hfocused h.inDialogue command
  refine ⟨?_, hbody.trans h.body_eq, hcamera.trans h.cameraOffset_eq⟩
  -- the conversation is still open, since its end would be among the events
  rcases (world.perform_happens command).active_or_ended hactive with
    hnext | ⟨lastNode, reason, hended⟩
  · exact hnext
  · exact absurd hended (hgoes lastNode reason)

/-- **Commands** that do not end the conversation leave physics suspended. -/
theorem run (h : Suspended conversation opened world) (hfocused : world.Focused)
    {commands : List Command}
    (hgoes : ∀ lastNode reason,
      .dialogueEnded conversation lastNode reason ∉ (world.run commands).2.flatten) :
    Suspended conversation opened (world.run commands).1 := by
  induction commands generalizing world with
  | nil => exact h
  | cons command rest ih =>
    -- neither the first command ends the conversation nor the others
    simp only [events_run_cons, List.mem_append, not_or] at hgoes
    have hnext := h.perform hfocused fun lastNode reason => (hgoes lastNode reason).1
    exact ih hnext (hfocused.run [command]) fun lastNode reason => (hgoes lastNode reason).2

end Suspended

/-- **Physics is suspended for a whole conversation.** A tick of a run has opened a conversation,
and since then there were any commands, none of which ended it. Then the body and the view are as
they were after that tick, nobody can be put anywhere or approached, and no tick changes this, not
even the one that ends the conversation. A tick ends it exactly if the player leaves, names by
number a choice that ends it, or confirms, without naming a choice by number, such a choice or a
node without choices. -/
theorem physics_suspended_of_run {character : Character} {rules : Rules} {level : Level}
    {script : Story.Script} (h : create character rules level script = .ok world)
    (before : List Command) (opening : Intent) (elapsed : Float32) {npc first : String}
    (hstarted : .dialogueStarted conversation npc first ∈
      ((world.run before).1.tick opening elapsed).2)
    (during : List Command)
    (hgoes : ∀ lastNode reason, .dialogueEnded conversation lastNode reason ∉
      (((world.run before).1.tick opening elapsed).1.run during).2.flatten) :
    let opened := ((world.run before).1.tick opening elapsed).1
    let last := (opened.run during).1
    last.body = opened.body ∧ last.cameraOffset = opened.cameraOffset ∧
    (∀ position, last.place position = last) ∧
    (∀ name dt, last.approach name dt = (last, false)) ∧
    ∃ node, last.session.cursor = .active conversation node.id ∧
      last.graph.get? node.id = some node ∧
      ∀ intent dt,
        let next := last.tick intent dt
        next.1.body = opened.body ∧ next.1.cameraOffset = opened.cameraOffset ∧
        ((∃ lastNode reason, .dialogueEnded conversation lastNode reason ∈ next.2) ↔
          Quits last.graph last.session.selected node intent) ∧
        (next.1.inDialogue = false ↔
          Quits last.graph last.session.selected node intent) := by
  intro opened last
  have hfocused : opened.Focused := focused_tick _ opening elapsed
  have hplaced : last.session.Placed last.graph := by
    -- the tick that opens the conversation is a run of one command
    have hopened := placed_run (placed_run (placed_of_create h) before) [.tick opening elapsed]
    exact placed_run hopened during
  have hopened : Suspended conversation opened opened :=
    ⟨⟨first, (tick_happens _ opening elapsed).active_of_started hstarted⟩, rfl, rfl⟩
  have hlast : Suspended conversation opened last := hopened.run hfocused hgoes
  refine ⟨hlast.body_eq, hlast.cameraOffset_eq, place_of_inDialogue hlast.inDialogue,
    approach_of_inDialogue hlast.inDialogue, ?_⟩
  -- the last world is on a node of its graph, and this node decides which keys end the conversation
  obtain ⟨id, hactive⟩ := hlast.active
  obtain ⟨node, hget, -⟩ := hplaced.active conversation id hactive
  obtain rfl := Story.Graph.id_of_get? hget
  refine ⟨node, hactive, hget, ?_⟩
  intro intent dt next
  obtain ⟨hbody, hcamera⟩ :=
    still_perform (hfocused.run during) hlast.inDialogue (.tick intent dt)
  exact ⟨hbody.trans hlast.body_eq, hcamera.trans hlast.cameraOffset_eq,
    ended_iff_quits hplaced hactive hget intent dt, closed_iff_quits hplaced hactive hget intent dt⟩

/-- The player answers, is called away, and tries to walk and jump. -/
def restless : List Command :=
  [.tick { confirm := true } 0.01, .place ⟨0, 0⟩,
    .tick { heading := .right, jump := true, numeric := some 1 } 0.5]

/-- The player is talked to in mid-air, cannot get away, and leaves in the end. -/
theorem physics_suspended_of_run_restless :
    ∃ world, create (Character.ofName "Morticia") {} porch twoRooms = .ok world ∧
      let opened := ((world.run [.place ⟨100, 300⟩]).1.tick { interact := true } 0.01).1
      let last := (opened.run restless).1
      last.body = opened.body ∧ last.approach "Guard" 0.01 = (last, false) ∧
      (last.tick { cancel := true } 0.01).1.body = opened.body ∧
      (last.tick { cancel := true } 0.01).1.inDialogue = false := by
  have hcheck : (create (Character.ofName "Morticia") {} porch twoRooms).toOption.any
      (fun world =>
        let opened := (world.run [.place ⟨100, 300⟩]).1.tick { interact := true } 0.01
        .dialogueStarted ⟨1⟩ "Guard" "gate" ∈ opened.2 ∧
          (opened.1.run restless).2.flatten =
            [.itemGained "key", .dialogueAdvanced "hall"]) = true := by
    decide +kernel
  obtain ⟨world, hworld, hp⟩ := exists_created hcheck
  obtain ⟨hstarted, hduring⟩ := of_decide_eq_true hp
  obtain ⟨hbody, -, -, happroach, node, -, -, hticks⟩ :=
    physics_suspended_of_run hworld [.place ⟨100, 300⟩] { interact := true } 0.01 hstarted restless
      (by
        intro lastNode reason
        rw [hduring]
        simp)
  obtain ⟨hlast, -, -, hclosed⟩ := hticks { cancel := true } 0.01
  exact ⟨world, hworld, hbody, happroach "Guard" 0.01, hlast, hclosed.2 (.cancel rfl)⟩

end Sidescroller.World
