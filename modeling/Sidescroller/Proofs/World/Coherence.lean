import Sidescroller.Proofs.World.Steering
import Sidescroller.World.Document

/-!
# Conversations of a world hang together

Three things tell that a conversation is open: where the session is, whether there is a partner, and
what is shown. They are kept in different places, and always agree. The partner is a character of
the level, and the conversation began on the node that this character has for it.

* `Event.offer?` — an event that says who has something to say, or would have;
* `tick_offers` — such events are about characters of the level;
* `Coherent` — the invariant; `Coherent.happens`, `Coherent.run` — every run keeps it;
* `dialogue_coherent_of_run` — what is shown, that confirming never fails, and that leaving ends a
  conversation at once.
-/

namespace Sidescroller.World

open Story (Session ConversationId Cursor Node)

variable {world : World} {level : Level} {past events : List Event} {plot plot' : Plot}

/-! ### Offers -/

/-- Whom an event found near the player, and the node that a conversation was to begin on. -/
def Event.offer? : Event → Option (String × String)
  | dialogueStarted _ npc node => some (npc, node)
  | dialogueUnavailable npc node => some (npc, node)
  | _ => none

/-- All offers among the events are made by characters of the level. -/
def OffersBy (level : Level) (events : List Event) : Prop :=
  ∀ event ∈ events, ∀ name node, event.offer? = some (name, node) →
    ∃ npc ∈ level.npcs, npc.name = name ∧ npc.entry = node

/-- While a conversation is open nobody offers another one. -/
theorem Happens.offer?_eq_none (h : Happens plot plot' events) {conversation : ConversationId}
    {id : String} (hactive : plot.session.cursor = .active conversation id) :
    ∀ event ∈ events, event.offer? = none := by
  have hitems : ∀ items : List String, ∀ event ∈ items.map Event.itemGained,
      event.offer? = none := by
    intro items event hevent
    obtain ⟨item, -, rfl⟩ := List.mem_map.1 hevent
    rfl
  have hclosing : ∀ ending, ∀ event ∈ plot.closing ending, event.offer? = none := by
    intro ending event hevent
    unfold Plot.closing at hevent
    dsimp only at hevent
    rcases List.mem_cons.1 hevent with rfl | hevent
    · rfl
    · split_ifs at hevent
      · cases hevent
      · obtain rfl := List.mem_singleton.1 hevent
        rfl
  intro event hevent
  cases h with
  | nothing selected => cases hevent
  -- both offers are for an idle session
  | unavailable npc node hidle => cases hactive.symm.trans hidle
  | opened npc node hidle hnode => cases hactive.symm.trans hidle
  | advanced hleaves hnext =>
    rcases List.mem_append.1 hevent with hevent | hevent
    · exact hitems _ event hevent
    · obtain rfl := List.mem_singleton.1 hevent
      rfl
  | ended hleaves hending =>
    rcases List.mem_append.1 hevent with hevent | hevent
    · exact hitems _ event hevent
    · exact hclosing _ event hevent
  | cancelled hactive' => exact hclosing _ event hevent

/-- What tells of an opening has just opened the conversation, on a node of the graph. -/
theorem Happens.of_started (h : Happens plot plot' events) {conversation : ConversationId}
    {npc first : String} (hstarted : .dialogueStarted conversation npc first ∈ events) :
    plot.session.cursor = .idle ∧ plot.graph.contains first = true ∧
      plot.session.start plot.graph first = (plot'.session, .ok conversation) := by
  cases hcursor : plot.session.cursor with
  | active conversation' id => cases h.offer?_eq_none hcursor _ hstarted
  | idle =>
    cases h with
    | nothing selected => cases hstarted
    | unavailable npc node hidle => cases List.mem_singleton.1 hstarted
    | opened npc node hidle hnode =>
      cases List.mem_singleton.1 hstarted
      exact ⟨rfl, hnode, Session.start_of_contains hidle hnode⟩
    | advanced hleaves hnext => cases hcursor.symm.trans hleaves.cursor_eq
    | ended hleaves hending => cases hcursor.symm.trans hleaves.cursor_eq
    | cancelled hactive => cases hcursor.symm.trans hactive

theorem openDialogue_offers (world : World) : OffersBy world.level world.openDialogue.2 := by
  intro event hevent name node hoffer
  -- whether there is something to say or not, it is a character of the level who is near
  rcases world.openDialogue_cases with
    ⟨trigger, h⟩ | ⟨trigger, npc, hnpc, -, -, h⟩ | ⟨trigger, npc, hnpc, -, -, h⟩
  · rw [h] at hevent
    cases hevent
  · rw [h] at hevent
    obtain rfl := List.mem_singleton.1 hevent
    exact ⟨npc, hnpc, Prod.mk.inj (Option.some.inj hoffer)⟩
  · rw [h] at hevent
    obtain rfl := List.mem_singleton.1 hevent
    exact ⟨npc, hnpc, Prod.mk.inj (Option.some.inj hoffer)⟩

/-- **Who talks is there**: the offers of a tick are made by characters of the level. -/
theorem tick_offers (world : World) (intent : Intent) (dt : Float32) :
    OffersBy world.level (world.tick intent dt).2 := by
  cases hcursor : world.session.cursor with
  | active conversation id =>
    intro event hevent name node hoffer
    have hnone := (world.tick_happens intent dt).offer?_eq_none hcursor event hevent
    cases hnone.symm.trans hoffer
  | idle =>
    rw [tick_of_idle (inDialogue_eq_false_iff.2 hcursor)]
    split_ifs
    · exact openDialogue_offers (world.moved intent dt)
    · exact nofun

theorem perform_offers (world : World) (command : Command) :
    OffersBy world.level ((world.perform command).2.getD []) := by
  cases command with
  | tick intent dt => exact world.tick_offers intent dt
  | place position => exact nofun
  | approach name dt => exact nofun

/-! ### The invariant -/

/-- **The conversation of a plot hangs together**, after the events of the `past`. -/
structure Coherent (level : Level) (past : List Event) (plot : Plot) : Prop where
  /-- Without a conversation there is no partner. -/
  idle : plot.session.cursor = .idle → plot.partner = none
  /-- In a conversation the partner is a character of the level, on whose node it began. -/
  active : ∀ conversation id, plot.session.cursor = .active conversation id →
    ∃ npc ∈ level.npcs, plot.partner = some npc.name ∧
      (plot.session.pending ++ [id]).head? = some npc.entry ∧
      .dialogueStarted conversation npc.name npc.entry ∈ past

namespace Coherent

theorem of_closed (hidle : plot.session.cursor = .idle) (hpartner : plot.partner = none) :
    Coherent level past plot where
  idle := fun _ => hpartner
  active := by
    intro conversation id hactive
    cases hidle.symm.trans hactive

/-- **Whatever happens** keeps the invariant. -/
theorem happens (h : Coherent level past plot) (hoffers : OffersBy level events)
    (hstep : Happens plot plot' events) : Coherent level (past ++ events) plot' := by
  cases hstep with
  | nothing selected =>
    rw [List.append_nil]
    exact ⟨h.idle, h.active⟩
  | unavailable npc node hidle => exact of_closed hidle (h.idle hidle)
  | opened name node hidle hnode =>
    refine ⟨nofun, ?_⟩
    intro conversation id hactive
    obtain ⟨rfl, rfl⟩ := Cursor.active.inj hactive
    -- the event that reports the opening is an offer
    obtain ⟨npc, hnpc, rfl, rfl⟩ := hoffers _ List.mem_cons_self name node rfl
    exact ⟨npc, hnpc, rfl, rfl, List.mem_append_right _ List.mem_cons_self⟩
  | @advanced conversation node choice session departure next hleaves hnext =>
    obtain ⟨-, -, hcursor, hpending⟩ := hleaves.of_continued hnext
    obtain ⟨npc, hnpc, hpartner, hfirst, hstarted⟩ := h.active _ _ hleaves.cursor_eq
    constructor
    · intro hidle
      cases hcursor.symm.trans hidle
    · intro conversation' id hactive
      obtain ⟨rfl, rfl⟩ := Cursor.active.inj (hcursor.symm.trans hactive)
      refine ⟨npc, hnpc, hpartner, ?_, List.mem_append_left _ hstarted⟩
      -- the nodes so far are pending now, and the next one comes behind them
      rw [hpending, List.head?_append, hfirst]
      rfl
  | ended hleaves hending =>
    obtain ⟨reason, -, -, hcursor, -⟩ := hleaves.of_ended hending
    exact of_closed hcursor rfl
  | cancelled hactive => exact of_closed rfl rfl

/-- **A run of commands** keeps the invariant. -/
theorem run (h : Coherent world.level past world.plot) (commands : List Command) :
    Coherent world.level (past ++ (world.run commands).2.flatten) (world.run commands).1.plot := by
  induction commands generalizing world past with
  | nil =>
    show Coherent world.level (past ++ []) world.plot
    rw [List.append_nil]
    exact h
  | cons command rest ih =>
    have hlevel : (world.perform command).1.level = world.level :=
      congrArg Setting.level (world.setting_perform command)
    have hnext := h.happens (world.perform_offers command) (world.perform_happens command)
    rw [← hlevel] at hnext
    have hlast := ih hnext
    rw [hlevel, List.append_assoc, ← events_run_cons] at hlast
    exact hlast

end Coherent

/-! ### What is shown -/

theorem dialogueView?_of_active {conversation : ConversationId} {id : String} {node : Node}
    (hactive : world.session.cursor = .active conversation id)
    (hget : world.graph.get? id = some node) :
    world.dialogueView? = some {
      conversation
      npc := world.partner
      node := id
      speaker := node.speaker
      text := node.text
      emotion := node.emotion
      choices := node.choices.map (·.text)
      selected := world.session.selected } := by
  obtain rfl := Story.Graph.id_of_get? hget
  unfold dialogueView?
  rw [Session.currentNode?_of_active hactive hget, Session.conversation?, hactive]
  rfl

theorem dialogueView?_of_idle (hidle : world.session.cursor = .idle) :
    world.dialogueView? = none := by
  unfold dialogueView? Session.currentNode? Session.currentId?
  rw [hidle]
  rfl

/-! ### Leaving and confirming -/

/-- A tick in which the player leaves ends the conversation. -/
theorem tick_of_cancel {conversation : ConversationId} {id : String}
    (hactive : world.session.cursor = .active conversation id) {intent : Intent}
    (hcancel : intent.cancel = true) (dt : Float32) :
    (world.tick intent dt).1.inDialogue = false ∧ (world.tick intent dt).1.partner = none ∧
      ∃ turned, (world.tick intent dt).2 =
        .dialogueEnded conversation id .cancelled :: turned := by
  rw [tick_of_inDialogue (inDialogue_of_active hactive)]
  unfold converse
  rw [if_pos hcancel]
  simp only [Session.cancel_of_active hactive]
  exact ⟨rfl, rfl, _, rfl⟩

/-- A tick in which the player confirms does what the session makes of it. -/
theorem session_tick_of_confirm (hmode : world.inDialogue = true) {intent : Intent}
    (hcancel : intent.cancel = false) (hpick : world.pick intent.numeric = none)
    (hconfirm : intent.confirm = true) (dt : Float32) :
    (world.tick intent dt).1.session = (world.session.confirm world.graph).1 := by
  rw [session_tick_of_inDialogue hmode]
  unfold respond
  rw [hcancel, hpick, hconfirm]
  rfl

/-- **Conversations hang together.** After any commands a conversation is open exactly if one is
shown, and exactly if there is a partner. Then the partner is a character of the level, and the
conversation was opened with it, on the node that it has for the purpose, which is the first one of
the conversation. What is shown is the current node of the graph, with the partner's name, and the
highlight is on one of the choices shown, or at zero if there are none. Confirming never fails, so
a tick that comes to it leaves the node; and a tick in which the player leaves ends the
conversation. -/
theorem dialogue_coherent_of_run {character : Character} {rules : Rules} {level : Level}
    {script : Story.Script} {world : World}
    (h : create character rules level script = .ok world) (commands : List Command) :
    let last := (world.run commands).1
    let events := (world.run commands).2.flatten
    (last.inDialogue = true ↔ last.view.dialogue.isSome = true) ∧
    (last.inDialogue = true ↔ last.partner.isSome = true) ∧
    (last.inDialogue = true →
      ∃ conversation id npc node, last.session.cursor = .active conversation id ∧
        npc ∈ level.npcs ∧ last.partner = some npc.name ∧
        (last.session.pending ++ [id]).head? = some npc.entry ∧
        .dialogueStarted conversation npc.name npc.entry ∈ events ∧
        last.graph = world.graph ∧ last.graph.get? id = some node ∧
        last.view.dialogue = some {
          conversation
          npc := some npc.name
          node := id
          speaker := node.speaker
          text := node.text
          emotion := node.emotion
          choices := node.choices.map (·.text)
          selected := last.session.selected } ∧
        (last.session.selected < node.choices.length ∨
          node.choices = [] ∧ last.session.selected = 0) ∧
        (∃ session departure, last.session.confirm last.graph = (session, .ok departure) ∧
          ∀ (intent : Intent) (dt : Float32), intent.cancel = false →
            last.pick intent.numeric = none → intent.confirm = true →
            (last.tick intent dt).1.session = session) ∧
        ∀ (intent : Intent) (dt : Float32), intent.cancel = true →
          (last.tick intent dt).1.inDialogue = false ∧
          ∃ turned, (last.tick intent dt).2 =
            .dialogueEnded conversation id .cancelled :: turned) := by
  intro last events
  obtain ⟨graph, chapters, -, hplot⟩ := plot_of_create h
  have hlevel : world.level = level := level_of_create h
  -- two invariants hold at the end of the run: of the partner, and of the cursor in its graph
  have hcoherent : Coherent level events last.plot := by
    have hstart : Coherent world.level [] world.plot := by
      rw [hplot]
      exact Coherent.of_closed rfl rfl
    exact hlevel ▸ hstart.run commands
  have hgraph : last.graph = world.graph := world.graph_run commands
  have hplaced : last.session.Placed last.graph := placed_run (placed_of_create h) commands
  -- the mode, the view and the partner all go by the cursor
  cases hcursor : last.session.cursor with
  | idle =>
    -- all three say no, and there is nothing else to show
    have hmode : last.inDialogue = false := inDialogue_eq_false_iff.2 hcursor
    have hshown : last.view.dialogue = none := dialogueView?_of_idle hcursor
    have hpartner : last.partner = none := hcoherent.idle hcursor
    rw [hmode, hshown, hpartner]
    exact ⟨Iff.rfl, Iff.rfl, nofun⟩
  | active conversation id =>
    have hmode : last.inDialogue = true := inDialogue_of_active hcursor
    obtain ⟨npc, hnpc, hpartner, hfirst, hstarted⟩ := hcoherent.active conversation id hcursor
    have hpartner : last.partner = some npc.name := hpartner
    obtain ⟨node, hget, hselected⟩ := hplaced.active conversation id hcursor
    -- the view has the partner's name from the world, and the rest from the node of the cursor
    have hshown := dialogueView?_of_active hcursor hget
    rw [hpartner] at hshown
    obtain ⟨session, departure, hconfirm, -, -⟩ := hplaced.confirm hcursor
    refine ⟨iff_of_true hmode ?_, iff_of_true hmode ?_, ?_⟩
    · exact congrArg Option.isSome hshown
    · exact congrArg Option.isSome hpartner
    · intro _
      refine ⟨conversation, id, npc, node, rfl, hnpc, hpartner, hfirst, hstarted, hgraph, hget,
        hshown, ?_, ⟨session, departure, hconfirm, ?_⟩, ?_⟩
      · -- the highlight is where the invariant has it
        rcases hselected with hlt | ⟨hnone, hzero⟩
        · exact Or.inl hlt
        · exact Or.inr ⟨List.length_eq_zero_iff.1 hnone, hzero⟩
      · -- a tick that comes to confirming does what the session does, which does not fail
        intro intent dt hcancel hpick hpressed
        rw [session_tick_of_confirm hmode hcancel hpick hpressed dt, hconfirm]
      · -- leaving comes before all other keys, so nothing is asked of these
        intro intent dt hcancel
        obtain ⟨hended, -, hevents⟩ := tick_of_cancel hcursor hcancel dt
        exact ⟨hended, hevents⟩

/-- A visit to the porch that has come to the hall, and that the player leaves there. -/
theorem dialogue_coherent_of_run_visit :
    ∃ world, create (Character.ofName "Morticia") {} porch twoRooms = .ok world ∧
      let last := (world.run (visit.take 2)).1
      last.inDialogue = true ∧ last.view.dialogue.isSome = true ∧
      (∃ npc ∈ porch.npcs, last.partner = some npc.name) ∧
      (∃ session departure, last.session.confirm last.graph = (session, .ok departure) ∧
        (last.tick { confirm := true } 0.01).1.session = session) ∧
      (last.tick { cancel := true } 0.01).1.inDialogue = false := by
  have hcheck : (create (Character.ofName "Morticia") {} porch twoRooms).toOption.any
      (fun world => (world.run (visit.take 2)).1.inDialogue) = true := by decide +kernel
  obtain ⟨world, hworld, hmode⟩ := exists_created hcheck
  obtain ⟨hshown, -, hopen⟩ := dialogue_coherent_of_run hworld (visit.take 2)
  obtain ⟨conversation, id, npc, node, -, hnpc, hpartner, -, -, -, -, -, -, hconfirms, hleaves⟩ :=
    hopen hmode
  obtain ⟨session, departure, hconfirm, htick⟩ := hconfirms
  exact ⟨world, hworld, hmode, hshown.1 hmode, ⟨npc, hnpc, hpartner⟩,
    ⟨session, departure, hconfirm, htick { confirm := true } 0.01 rfl rfl rfl⟩,
    (hleaves { cancel := true } 0.01 rfl).1⟩

end Sidescroller.World
