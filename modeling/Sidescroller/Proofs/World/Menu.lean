import Sidescroller.Proofs.Story.Highlight
import Sidescroller.Proofs.World.Steering

/-!
# A number key or the menu keys

In a conversation a choice is taken at once by its number key, or the highlight is moved to it with
the menu keys, one tick for each step, and it is confirmed in one more tick. The steps change
nothing but the highlight, and leaving the node does not look at what the world did meanwhile. So
both ways lead to the same world, but that the trigger has waited for another time.

* `Nudge.Pressed` — the keys that move the highlight one step;
* `run_of_pressed` — a run of them moves the highlight, and nothing happens in it;
* `tick_of_number`, `run_of_menu` — what the two ways lead to;
* `ways_of_choosing_agree` — all ways of taking a choice agree.
-/

namespace Sidescroller

open Story (Session Nudge Graph ConversationId Node Departure)

/-- **The keys of one step**: one menu key, and none of the keys that go before it. -/
structure Story.Nudge.Pressed (nudge : Nudge) (intent : Intent) : Prop where
  cancel_eq : intent.cancel = false
  numeric_eq : intent.numeric = none
  confirm_eq : intent.confirm = false
  menuUp_eq : intent.menuUp = decide (nudge = .up)
  menuDown_eq : intent.menuDown = decide (nudge = .down)

namespace World

variable {world : World} {intent : Intent} {nudge : Nudge} {session : Session}
  {departure : Departure}

/-! ### Steps of the highlight -/

theorem converse_of_pressed (h : nudge.Pressed intent) :
    world.converse intent =
      ({ world with session := world.session.moveSelection world.graph nudge.delta }, []) := by
  unfold converse pick highlight
  rw [h.cancel_eq, h.numeric_eq, h.confirm_eq, h.menuUp_eq, h.menuDown_eq]
  cases nudge with
  | up => rfl
  | down => rfl

/-- **A run of steps.** The highlight moves, and besides only the trigger and the camera go on. -/
theorem run_of_pressed (hmode : world.inDialogue = true) {nudges : List Nudge}
    {presses : List (Intent × Float32)}
    (h : List.Forall₂ (fun nudge press => nudge.Pressed press.1) nudges presses) :
    ∃ remaining cameraOffset,
      (world.run (presses.map fun press => .tick press.1 press.2)).1 =
        { world with
          session := world.session.nudge world.graph nudges
          trigger := { world.trigger with remaining }
          cameraOffset } ∧
      (world.run (presses.map fun press => .tick press.1 press.2)).2.flatten = [] := by
  induction h generalizing world with
  | nil => exact ⟨world.trigger.remaining, world.cameraOffset, rfl, rfl⟩
  | @cons nudge press nudges presses hpressed hrest ih =>
    have htick : world.tick press.1 press.2 =
        (focus
          { world with
            session := world.session.moveSelection world.graph nudge.delta
            trigger := world.trigger.tick press.2 }, []) := by
      rw [tick_of_inDialogue hmode, converse_of_pressed hpressed]
    -- the conversation stays open
    have hmode' : (world.tick press.1 press.2).1.inDialogue = true := by
      obtain ⟨selected, hselected⟩ := world.session.moveSelection_eq world.graph nudge.delta
      rw [htick, hselected]
      exact hmode
    obtain ⟨remaining, cameraOffset, hworld, hevents⟩ := ih hmode'
    refine ⟨remaining, cameraOffset, ?_, ?_⟩
    · rw [List.map_cons, run, perform]
      dsimp only
      rw [hworld, htick]
      rfl
    · rw [List.map_cons, events_run_cons, perform, hevents, htick]
      rfl

/-! ### Taking the choice -/

theorem converse_of_number {key : UInt8} (hcancel : intent.cancel = false)
    (hnumeric : intent.numeric = some key)
    (hchoose : world.session.chooseNumeric world.graph key = (session, some departure)) :
    world.converse intent = { world with session }.depart departure := by
  unfold converse pick
  simp only [hcancel, hnumeric, hchoose, Bool.false_eq_true, if_false]

theorem converse_of_confirm (hcancel : intent.cancel = false) (hnumeric : intent.numeric = none)
    (hconfirm : intent.confirm = true)
    (hok : world.session.confirm world.graph = (session, .ok departure)) :
    world.converse intent = { world with session }.depart departure := by
  unfold converse pick
  simp only [hcancel, hnumeric, hconfirm, hok, Bool.false_eq_true, if_false, if_true]

/-- Leaving a node looks neither at the trigger nor at the camera. -/
theorem depart_withTriggerAndCamera (world : World) (trigger : Trigger) (cameraOffset : Vec2)
    (departure : Departure) :
    { world with trigger, cameraOffset }.depart departure =
      ({ (world.depart departure).1 with trigger, cameraOffset }, (world.depart departure).2) := by
  unfold depart
  cases departure.transition with
  | continued node => rfl
  | ended ending => rfl

/-- The tick in which a number key takes a choice. -/
theorem tick_of_number (hmode : world.inDialogue = true) {key : UInt8}
    (hcancel : intent.cancel = false) (hnumeric : intent.numeric = some key)
    (hchoose : world.session.chooseNumeric world.graph key = (session, some departure))
    (dt : Float32) :
    let departed := { world with session }.depart departure
    world.tick intent dt =
      (focus { departed.1 with trigger := world.trigger.tick dt }, departed.2) := by
  rw [tick_of_inDialogue hmode, converse_of_number hcancel hnumeric hchoose]

/-- The ticks in which the highlight is moved, and the one in which the choice is confirmed. -/
theorem run_of_menu (hmode : world.inDialogue = true) {nudges : List Nudge}
    {presses : List (Intent × Float32)}
    (hpresses : List.Forall₂ (fun nudge press => nudge.Pressed press.1) nudges presses)
    (hcancel : intent.cancel = false) (hnumeric : intent.numeric = none)
    (hconfirm : intent.confirm = true)
    (hok : (world.session.nudge world.graph nudges).confirm world.graph = (session, .ok departure))
    (dt : Float32) :
    let departed := { world with session }.depart departure
    let menu := world.run (presses.map (fun press => .tick press.1 press.2) ++ [.tick intent dt])
    menu.2.flatten = departed.2 ∧
      ∃ remaining, menu.1 =
        focus { departed.1 with trigger := { world.trigger with remaining } } := by
  intro departed menu
  obtain ⟨remaining, cameraOffset, hworld, hevents⟩ := run_of_pressed hmode hpresses
  -- the world before the last tick differs in what leaving a node does not look at
  generalize hnudged : (world.run (presses.map fun press => .tick press.1 press.2)).1 = nudged
    at hworld
  have hmode' : nudged.inDialogue = true := by
    obtain ⟨selected, hselected⟩ := world.session.nudge_eq world.graph nudges
    rw [hworld, hselected]
    exact hmode
  have hok' : nudged.session.confirm nudged.graph = (session, .ok departure) := by
    rw [hworld]
    exact hok
  have hdepart : { nudged with session }.depart departure =
      ({ departed.1 with trigger := { world.trigger with remaining }, cameraOffset },
        departed.2) := by
    rw [hworld]
    exact depart_withTriggerAndCamera { world with session } _ cameraOffset departure
  have htick : nudged.tick intent dt =
      (focus { departed.1 with trigger := nudged.trigger.tick dt }, departed.2) := by
    rw [tick_of_inDialogue hmode', converse_of_confirm hcancel hnumeric hconfirm hok', hdepart]
    rfl
  constructor
  · show (world.run _).2.flatten = _
    rw [events_run_append, hnudged, List.flatten_append, hevents, List.nil_append]
    show [(nudged.tick intent dt).2].flatten = _
    rw [htick, List.flatten_singleton]
  · refine ⟨(nudged.trigger.tick dt).remaining, ?_⟩
    show (world.run _).1 = _
    rw [run_append, hnudged]
    show (nudged.tick intent dt).1 = _
    rw [htick, hworld]
    rfl

/-- **All ways of taking a choice agree.** In a conversation on a node with choices, let one of them
be highlighted, and let a key number one of them. Taking the choice of that number by its position,
by the key, and by moving the highlight there and confirming answers the same, and leaves the same
session. The straight way of the highlight leads there, and no other way makes a difference. In a
world, a tick with the number key and the ticks of the menu keys with a tick to confirm return the
same events, and lead to the same world, but for the time that the trigger still has to wait. -/
theorem ways_of_choosing_agree {graph : Graph} {session : Session}
    {conversation : ConversationId} {node : Node} {key : UInt8}
    (hactive : session.cursor = .active conversation node.id)
    (hget : graph.get? node.id = some node) (hselected : session.selected < node.choiceCount)
    (hpos : 1 ≤ key.toNat) (hle : key.toNat ≤ node.choiceCount) :
    ∃ session' departure,
      session.choose graph (key.toNat - 1) = (session', .ok departure) ∧
      session.chooseNumeric graph key = (session', some departure) ∧
      (session.nudge graph (Nudge.straight session.selected (key.toNat - 1))).selected =
        key.toNat - 1 ∧
      ∀ nudges, (session.nudge graph nudges).selected = key.toNat - 1 →
        (session.nudge graph nudges).confirm graph = (session', .ok departure) ∧
        ∀ world : World, world.graph = graph → world.session = session →
          ∀ (number confirming : Intent) (presses : List (Intent × Float32)) (dt dt' : Float32),
            number.cancel = false → number.numeric = some key →
            List.Forall₂ (fun nudge press => nudge.Pressed press.1) nudges presses →
            confirming.cancel = false → confirming.numeric = none → confirming.confirm = true →
            let byNumber := world.run [.tick number dt]
            let byMenu := world.run
              (presses.map (fun press => .tick press.1 press.2) ++ [.tick confirming dt'])
            byMenu.2.flatten = byNumber.2.flatten ∧
            byMenu.1 =
              { byNumber.1 with
                trigger :=
                  { byNumber.1.trigger with remaining := byMenu.1.trigger.remaining } } := by
  have hcurrent := Session.currentNode?_of_active hactive hget
  have hindex : key.toNat - 1 < node.choiceCount := by omega
  -- in a session all ways come down to taking the choice at its position
  obtain ⟨session', departure, hchoose, -⟩ :=
    Session.choose_leaves hactive hget (List.getElem?_eq_getElem hindex)
  have hnumber := Session.chooseNumeric_of_choose hactive hget hpos hle hchoose
  refine ⟨session', departure, hchoose, hnumber,
    Session.selected_nudge_straight hcurrent hselected hindex, ?_⟩
  intro nudges hnudges
  have hconfirm := (Session.confirm_nudge hactive hget hindex hnudges).trans hchoose
  refine ⟨hconfirm, ?_⟩
  rintro world rfl rfl number confirming presses dt dt' hcancel hnumeric hpresses hcancel'
    hnumeric' hconfirming byNumber byMenu
  -- in a world the steps take ticks, in which only the wait of the trigger goes on
  have hmode : world.inDialogue = true := inDialogue_of_active hactive
  obtain ⟨hevents, remaining, hmenu⟩ :=
    run_of_menu hmode hpresses hcancel' hnumeric' hconfirming hconfirm dt'
  have htick := tick_of_number hmode hcancel hnumeric hnumber dt
  have hbyNumber : byNumber = ((world.tick number dt).1, [(world.tick number dt).2]) := rfl
  rw [hbyNumber, htick]
  constructor
  · rw [List.flatten_singleton]
    exact hevents
  · show byMenu.1 = _
    rw [hmenu]
    rfl

/-- A gate that can be passed, asked for again, or left, and that leads astray. -/
def fork : Node where
  id := "gate"
  speaker := "Guard"
  text := "Which way?"
  choices :=
    [{ text := "In.", next := some "hall" }, { text := "Again?", next := some "gate" },
      { text := "Up.", next := some "tower", consequence := some "map" }, { text := "Out." }]
  grantsItem := some "key"

/-- The gate, and the hall behind it. -/
def forked : Story.Script where
  outline := twoRooms.outline
  nodes := [fork, { id := "hall", speaker := "Guard", text := "Wait here." }]

/-- The third choice of the gate, by its key, and by two steps of the highlight. -/
theorem ways_of_choosing_agree_fork :
    ∃ world, create (Character.ofName "Morticia") {} porch forked = .ok world ∧
      let opened := (world.run [.tick { interact := true } 0.01]).1
      let byNumber := opened.run [.tick { numeric := some 3 } 0.01]
      let byMenu := opened.run
        [.tick { menuDown := true } 0.01, .tick { menuDown := true } 0.02,
          .tick { confirm := true } 0.01]
      byMenu.2.flatten = byNumber.2.flatten ∧
      byMenu.1 =
        { byNumber.1 with
          trigger := { byNumber.1.trigger with remaining := byMenu.1.trigger.remaining } } ∧
      byMenu.1.session.inventory = ["key", "map"] ∧
      byMenu.1.trigger.remaining < byNumber.1.trigger.remaining := by
  have hcheck : (create (Character.ofName "Morticia") {} porch forked).toOption.any
      (fun world =>
        let opened := (world.run [.tick { interact := true } 0.01]).1
        let byNumber := opened.run [.tick { numeric := some 3 } 0.01]
        let byMenu := opened.run
          [.tick { menuDown := true } 0.01, .tick { menuDown := true } 0.02,
            .tick { confirm := true } 0.01]
        opened.session.cursor = .active ⟨1⟩ fork.id ∧ opened.session.selected = 0 ∧
          opened.graph.get? fork.id = some fork ∧
          (opened.session.nudge opened.graph [.down, .down]).selected = 2 ∧
          byMenu.1.session.inventory = ["key", "map"] ∧
          byMenu.1.trigger.remaining < byNumber.1.trigger.remaining) = true := by
    decide +kernel
  obtain ⟨world, hworld, hp⟩ := exists_created hcheck
  obtain ⟨hactive, hselected, hget, hnudges, hitems, hremaining⟩ := of_decide_eq_true hp
  refine ⟨world, hworld, ?_⟩
  intro opened byNumber byMenu
  have hlt : opened.session.selected < fork.choiceCount := by
    rw [show opened.session.selected = 0 from hselected]
    decide
  have hpos : 1 ≤ (3 : UInt8).toNat := by decide
  have hle : (3 : UInt8).toNat ≤ fork.choiceCount := by decide
  obtain ⟨session', departure, -, -, -, hagree⟩ :=
    ways_of_choosing_agree hactive hget hlt hpos hle
  obtain ⟨-, hworlds⟩ := hagree [.down, .down] hnudges
  obtain ⟨hevents, hsame⟩ := hworlds opened rfl rfl { numeric := some 3 } { confirm := true }
    [({ menuDown := true }, 0.01), ({ menuDown := true }, 0.02)] 0.01 0.01 rfl rfl
    (.cons ⟨rfl, rfl, rfl, rfl, rfl⟩ (.cons ⟨rfl, rfl, rfl, rfl, rfl⟩ .nil)) rfl rfl rfl
  exact ⟨hevents, hsame, hitems, hremaining⟩

end World

end Sidescroller
