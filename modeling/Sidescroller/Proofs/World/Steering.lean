import Sidescroller.Proofs.Story.Cursor
import Sidescroller.Proofs.World.Setup

/-!
# What a world asks of its session

A world never writes into its session. Whatever it is told to do, it performs operations on the
session, all of them on its own graph, and takes what they return. So all that operations on one
graph keep, a world keeps.

* `Session.Leads` — some operations lead from one session to another;
* `converse_eq` — in a conversation the session is asked first, and then the world takes note of
  what it has to report;
* `tick_of_inDialogue` — a tick of a conversation is `converse`, and besides it only the trigger and
  the camera go on; `tick_of_idle` — the body moves, and then a conversation may be opened;
* `graph_run`, `leads_run` — a run leaves the graph alone, and leads the session somewhere on it;
* `placed_run` — so the session is well placed on that graph.
-/

namespace Sidescroller.Story

namespace Operation

theorem on_of_graph? {graph : Graph} {operation : Operation} (h : operation.graph? = some graph) :
    operation.On graph := by
  intro other hother
  exact Option.some.inj (hother.symm.trans h)

theorem play_append (session : Session) (first second : List Operation) :
    (play session (first ++ second)).1 = (play (play session first).1 second).1 := by
  induction first generalizing session with
  | nil => rfl
  | cons operation rest ih => exact ih _

end Operation

/-- **Operations on the graph lead** from one session to the other. -/
def Session.Leads (graph : Graph) (session session' : Session) : Prop :=
  ∃ operations : List Operation, (∀ operation ∈ operations, operation.On graph) ∧
    (Operation.play session operations).1 = session'

namespace Session.Leads

variable {graph : Graph} {session session' session'' : Session}

theorem refl (graph : Graph) (session : Session) : Leads graph session session := ⟨[], nofun, rfl⟩

theorem perform (session : Session) (operation : Operation) (hon : operation.On graph) :
    Leads graph session (operation.perform session).1 := by
  refine ⟨[operation], ?_, rfl⟩
  intro other hother
  obtain rfl := List.mem_singleton.1 hother
  exact hon

theorem trans (h : Leads graph session session') (h' : Leads graph session' session'') :
    Leads graph session session'' := by
  obtain ⟨first, hfirst, rfl⟩ := h
  obtain ⟨second, hsecond, rfl⟩ := h'
  refine ⟨first ++ second, ?_, Operation.play_append session first second⟩
  intro operation hoperation
  rcases List.mem_append.1 hoperation with hoperation | hoperation
  · exact hfirst operation hoperation
  · exact hsecond operation hoperation

/-- A cursor that is well placed stays so wherever operations lead. -/
theorem placed (h : Leads graph session session') (hplaced : session.Placed graph) :
    session'.Placed graph := by
  obtain ⟨operations, hon, rfl⟩ := h
  exact hplaced.play hon

end Session.Leads

end Sidescroller.Story

namespace Sidescroller.World

open Story (Session Departure Ending Operation)

variable {world : World}

/-! ### Ticks of a conversation -/

/-- What a session may have to report of a tick. -/
inductive Report where
  | departed (departure : Departure)
  | ended (ending : Ending)

/-- The first half of a tick: the session is asked to do what the keys say. -/
def respond (world : World) (intent : Intent) : Session × Option Report :=
  if intent.cancel then
    (world.session.cancel.1, world.session.cancel.2.map .ended)
  else
    match world.pick intent.numeric with
    | some (session, departure) => (session, some (.departed departure))
    | none =>
      if intent.confirm then
        ((world.session.confirm world.graph).1,
          (world.session.confirm world.graph).2.toOption.map .departed)
      else (world.highlight intent, none)

/-- The second half: the world takes note of the report. -/
def takeNote (world : World) : Option Report → World × List Event
  | none => (world, [])
  | some (.departed departure) => world.depart departure
  | some (.ended ending) => world.finish ending

/-- **A conversation goes through the session**: its tick is the two halves, one after the other. -/
theorem converse_eq (world : World) (intent : Intent) :
    world.converse intent =
      { world with session := (world.respond intent).1 }.takeNote (world.respond intent).2 := by
  unfold converse respond
  -- the keys in the order in which they count, on both sides
  by_cases hcancel : intent.cancel = true
  · rw [if_pos hcancel, if_pos hcancel]
    cases world.session.cancel with
    | mk session ending? =>
      cases ending? with
      | none => rfl
      | some ending => rfl
  · rw [if_neg hcancel, if_neg hcancel]
    cases world.pick intent.numeric with
    | some picked => rfl
    | none =>
      by_cases hconfirm : intent.confirm = true
      · simp only [if_pos hconfirm]
        cases world.session.confirm world.graph with
        | mk session answer =>
          cases answer with
          | error error => rfl
          | ok departure => rfl
      · simp only [if_neg hconfirm]
        rfl

theorem session_depart (world : World) (departure : Departure) :
    (world.depart departure).1.session = world.session := by
  unfold depart
  cases departure.transition with
  | continued node => rfl
  | ended ending => rfl

/-- The world lets the session be where it is. -/
theorem session_takeNote (world : World) (report : Option Report) :
    (world.takeNote report).1.session = world.session := by
  cases report with
  | none => rfl
  | some report =>
    cases report with
    | departed departure => exact world.session_depart departure
    | ended ending => rfl

theorem depart_withTrigger (world : World) (trigger : Trigger) (departure : Departure) :
    { world with trigger }.depart departure =
      ({ (world.depart departure).1 with trigger }, (world.depart departure).2) := by
  unfold depart
  cases departure.transition with
  | continued node => rfl
  | ended ending => rfl

theorem takeNote_withTrigger (world : World) (trigger : Trigger) (report : Option Report) :
    { world with trigger }.takeNote report =
      ({ (world.takeNote report).1 with trigger }, (world.takeNote report).2) := by
  cases report with
  | none => rfl
  | some report =>
    cases report with
    | departed departure => exact world.depart_withTrigger trigger departure
    | ended ending => rfl

/-- A conversation does not look at the trigger. -/
theorem converse_withTrigger (world : World) (trigger : Trigger) (intent : Intent) :
    { world with trigger }.converse intent =
      ({ (world.converse intent).1 with trigger }, (world.converse intent).2) := by
  have hrespond : respond { world with trigger } intent = world.respond intent := rfl
  rw [converse_eq, converse_eq, hrespond]
  exact takeNote_withTrigger { world with session := (world.respond intent).1 } trigger _

/-- **A tick of a conversation.** The body stands still; the trigger's time and the camera go on. -/
theorem tick_of_inDialogue (h : world.inDialogue = true) (intent : Intent) (dt : Float32) :
    world.tick intent dt =
      (focus { (world.converse intent).1 with trigger := world.trigger.tick dt },
        (world.converse intent).2) := by
  have hmode : inDialogue { world with trigger := world.trigger.tick dt } = true := h
  unfold tick
  dsimp only
  rw [if_pos hmode, converse_withTrigger]

/-- In a conversation the session goes where the keys lead it; neither the note that is taken nor
the camera does anything to it. -/
theorem session_tick_of_inDialogue (h : world.inDialogue = true) (intent : Intent) (dt : Float32) :
    (world.tick intent dt).1.session = (world.respond intent).1 := by
  rw [tick_of_inDialogue h, converse_eq]
  exact session_takeNote _ _

/-! ### Ticks of free movement -/

/-- The world after a step of the body, before anybody is talked to. -/
def moved (world : World) (intent : Intent) (dt : Float32) : World :=
  { world with
    trigger := world.trigger.tick dt
    body := (Collision.step world.level.platforms world.body intent.heading intent.jump dt).1 }

/-- **A tick of free movement.** The body moves, and then a conversation may be opened. -/
theorem tick_of_idle (h : world.inDialogue = false) (intent : Intent) (dt : Float32) :
    world.tick intent dt =
      if intent.interact then
        ((world.moved intent dt).openDialogue.1.focus, (world.moved intent dt).openDialogue.2)
      else ((world.moved intent dt).focus, []) := by
  have hmode : inDialogue { world with trigger := world.trigger.tick dt } = false := h
  unfold tick roam
  dsimp only
  rw [hmode]
  by_cases hinteract : intent.interact = true
  · rw [if_pos hinteract]
    simp only [if_pos hinteract]
    rfl
  · rw [if_neg hinteract]
    simp only [if_neg hinteract]
    rfl

/-! ### Where the session is led -/

theorem pick_eq_some {key? : Option UInt8} {session : Session} {departure : Departure}
    (h : world.pick key? = some (session, departure)) :
    ∃ key, key? = some key ∧
      world.session.chooseNumeric world.graph key = (session, some departure) := by
  unfold pick at h
  cases key? with
  | none => cases h
  | some key =>
    refine ⟨key, rfl, ?_⟩
    cases hchoose : world.session.chooseNumeric world.graph key with
    | mk session' departure? =>
      simp only [hchoose] at h
      cases departure? with
      | none => cases h
      | some departure' =>
        obtain ⟨rfl, rfl⟩ := Prod.mk.inj (Option.some.inj h)
        rfl

theorem leads_highlight (world : World) (intent : Intent) :
    Session.Leads world.graph world.session (world.highlight intent) := by
  have hmove : ∀ (session : Session) (delta : Int),
      Session.Leads world.graph session (session.moveSelection world.graph delta) := by
    intro session delta
    exact Session.Leads.perform session (.moveSelection world.graph delta)
      (Operation.on_of_graph? rfl)
  unfold highlight
  dsimp only
  -- both keys may be pressed, and then there are two operations
  cases intent.menuUp <;> cases intent.menuDown <;>
    simp only [Bool.false_eq_true, if_false, if_true]
  · exact .refl world.graph world.session
  · exact hmove _ _
  · exact hmove _ _
  · exact (hmove _ _).trans (hmove _ _)

/-- **All keys of a conversation** are operations on the graph of the world. -/
theorem leads_respond (world : World) (intent : Intent) :
    Session.Leads world.graph world.session (world.respond intent).1 := by
  unfold respond
  by_cases hcancel : intent.cancel = true
  · rw [if_pos hcancel]
    exact Session.Leads.perform world.session .cancel nofun
  · rw [if_neg hcancel]
    cases hpick : world.pick intent.numeric with
    | some picked =>
      obtain ⟨key, -, hchoose⟩ := pick_eq_some hpick
      have hlead := Session.Leads.perform world.session (.chooseNumeric world.graph key)
        (Operation.on_of_graph? rfl)
      rw [Operation.perform, hchoose] at hlead
      exact hlead
    | none =>
      by_cases hconfirm : intent.confirm = true
      · simp only [if_pos hconfirm]
        exact Session.Leads.perform world.session (.confirm world.graph)
          (Operation.on_of_graph? rfl)
      · simp only [if_neg hconfirm]
        exact world.leads_highlight intent

theorem leads_openDialogue (world : World) :
    Session.Leads world.graph world.session world.openDialogue.1.session := by
  rcases world.openDialogue_cases with
    ⟨trigger, h⟩ | ⟨trigger, npc, -, -, -, h⟩ | ⟨trigger, npc, -, hidle, hnode, h⟩
  · rw [h]
    exact .refl world.graph world.session
  · rw [h]
    exact .refl world.graph world.session
  · have hlead := Session.Leads.perform world.session (.start world.graph npc.entry)
      (Operation.on_of_graph? rfl)
    rw [Operation.perform, Session.start_of_contains hidle hnode] at hlead
    rw [h]
    exact hlead

theorem leads_tick (world : World) (intent : Intent) (dt : Float32) :
    Session.Leads world.graph world.session (world.tick intent dt).1.session := by
  cases hmode : world.inDialogue with
  | true =>
    rw [session_tick_of_inDialogue hmode]
    exact world.leads_respond intent
  | false =>
    rw [tick_of_idle hmode]
    split_ifs
    · exact leads_openDialogue (world.moved intent dt)
    · exact .refl world.graph world.session

theorem leads_perform (world : World) (command : Command) :
    Session.Leads world.graph world.session (world.perform command).1.session := by
  cases command with
  | tick intent dt => exact world.leads_tick intent dt
  | place position =>
    have hplot := congrArg Plot.session (world.plot_place position)
    exact ⟨[], nofun, hplot.symm⟩
  | approach name dt =>
    have hplot := congrArg Plot.session (world.plot_approach name dt)
    exact ⟨[], nofun, hplot.symm⟩

/-! ### Runs -/

theorem Happens.graph_eq {plot plot' : Plot} {events : List Event}
    (h : Happens plot plot' events) : plot'.graph = plot.graph := by
  cases h <;> rfl

theorem graph_perform (world : World) (command : Command) :
    (world.perform command).1.graph = world.graph :=
  (world.perform_happens command).graph_eq

/-- The events of a run begin with those of its first command. A command that is no tick has
none. -/
theorem events_run_cons (world : World) (command : Command) (rest : List Command) :
    (world.run (command :: rest)).2.flatten =
      (world.perform command).2.getD [] ++ ((world.perform command).1.run rest).2.flatten := by
  show ((world.perform command).2.toList ++ ((world.perform command).1.run rest).2).flatten = _
  cases (world.perform command).2 with
  | none => rfl
  | some events => rfl

/-- Every event of a run is an event of a tick in it. -/
theorem exists_tick_of_mem_run {commands : List Command} {event : Event}
    (h : event ∈ (world.run commands).2.flatten) :
    ∃ before intent dt, event ∈ ((world.run before).1.tick intent dt).2 := by
  induction commands generalizing world with
  | nil => cases h
  | cons command rest ih =>
    rw [events_run_cons] at h
    rcases List.mem_append.1 h with hfirst | hrest
    · cases command with
      | tick intent dt => exact ⟨[], intent, dt, hfirst⟩
      | place position => cases hfirst
      | approach name dt => cases hfirst
    · obtain ⟨before, intent, dt, hevent⟩ := ih hrest
      exact ⟨command :: before, intent, dt, hevent⟩

/-- The graph is for good. -/
theorem graph_run (world : World) (commands : List Command) :
    (world.run commands).1.graph = world.graph := by
  induction commands generalizing world with
  | nil => rfl
  | cons command rest ih => exact (ih _).trans (world.graph_perform command)

/-- **A run leads the session** by operations on the graph of the world. -/
theorem leads_run (world : World) (commands : List Command) :
    Session.Leads world.graph world.session (world.run commands).1.session := by
  induction commands generalizing world with
  | nil => exact .refl world.graph world.session
  | cons command rest ih =>
    have hrest := ih (world.perform command).1
    rw [graph_perform] at hrest
    exact (world.leads_perform command).trans hrest

/-- The session of a run is well placed on the graph of the world. -/
theorem placed_run (h : world.session.Placed world.graph) (commands : List Command) :
    (world.run commands).1.session.Placed (world.run commands).1.graph := by
  rw [graph_run]
  exact (world.leads_run commands).placed h

theorem placed_of_create {character : Character} {rules : Rules} {level : Level}
    {script : Story.Script} (h : create character rules level script = .ok world) :
    world.session.Placed world.graph := by
  obtain ⟨graph, chapters, -, hplot⟩ := plot_of_create h
  have hsession : world.session = Session.fresh := congrArg Plot.session hplot
  rw [hsession]
  exact Session.Placed.fresh world.graph

theorem level_of_create {character : Character} {rules : Rules} {level : Level}
    {script : Story.Script} (h : create character rules level script = .ok world) :
    world.level = level := by
  obtain ⟨graph, chapters, camera, -, -, rfl⟩ := eq_of_create h
  rfl

end Sidescroller.World
