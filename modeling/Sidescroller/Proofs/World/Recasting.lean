import Sidescroller.Proofs.Story.Rewording
import Sidescroller.Proofs.World.Steering
import Sidescroller.World.Document

/-!
# The same game for everybody

Who the student is makes no difference to the game. The name enters a world in the texts of its
nodes and is shown beside the heritage, and nothing that happens looks at either.

Two worlds are not compared with each other here. Both are compared with the world as it was
written, in which the player is called like the placeholder, so that the texts are those of the
script. A character is cast into that world, and all there is to show is that casting commutes with
everything: with ticks and other commands, and with the making of worlds.

* `World.recast` — the world with another character, who is addressed in its texts;
* `recast_tick`, `recast_run` — a recast world goes through the same run;
* `create_eq` — every world is the one that was written, recast;
* `SameGame`, `same_game_for_everybody` — what this means for two characters.
-/

namespace Sidescroller

/-- The character whose name is the placeholder. -/
def Character.unnamed : Character := ⟨String.ofList Text.placeholder, 0, 0, 0⟩

namespace World

open Story (Session Departure Ending Graph Script)

/-- The world with another character, to whom its texts are addressed. -/
def recast (character : Character) (world : World) : World :=
  { world with character, graph := world.graph.reword (Text.address character.name) }

variable (character : Character) (world : World)

/-! ### Ticks -/

theorem session_recast : (world.recast character).session = world.session := rfl

theorem body_recast : (world.recast character).body = world.body := rfl

theorem inDialogue_recast : (world.recast character).inDialogue = world.inDialogue := rfl

theorem recast_depart (departure : Departure) :
    (world.recast character).depart departure =
      ((world.depart departure).1.recast character, (world.depart departure).2) := by
  unfold depart
  cases departure.transition with
  | continued node => rfl
  | ended ending => rfl

theorem pick_recast (key? : Option UInt8) :
    (world.recast character).pick key? = world.pick key? := by
  have hchoose : ∀ key, world.session.chooseNumeric (world.recast character).graph key =
      world.session.chooseNumeric world.graph key := world.session.chooseNumeric_reword
  unfold pick
  simp only [session_recast, hchoose]

theorem highlight_recast (intent : Intent) :
    (world.recast character).highlight intent = world.highlight intent := by
  have hmove : ∀ (session : Session) delta,
      session.moveSelection (world.recast character).graph delta =
        session.moveSelection world.graph delta := fun session => session.moveSelection_reword
  unfold highlight
  simp only [session_recast, hmove]

/-- A session that is asked on the words of another student responds the same. -/
theorem respond_recast (intent : Intent) :
    (world.recast character).respond intent = world.respond intent := by
  have hconfirm : world.session.confirm (world.recast character).graph =
      world.session.confirm world.graph := world.session.confirm_reword
  unfold respond
  rw [pick_recast, highlight_recast, session_recast, hconfirm]

theorem recast_takeNote (report : Option Report) :
    (world.recast character).takeNote report =
      ((world.takeNote report).1.recast character, (world.takeNote report).2) := by
  cases report with
  | none => rfl
  | some report =>
    cases report with
    | departed departure => exact recast_depart character world departure
    | ended ending => rfl

theorem recast_converse (intent : Intent) :
    (world.recast character).converse intent =
      ((world.converse intent).1.recast character, (world.converse intent).2) := by
  rw [converse_eq, converse_eq, respond_recast]
  exact recast_takeNote character { world with session := (world.respond intent).1 } _

theorem recast_openDialogue :
    (world.recast character).openDialogue =
      (world.openDialogue.1.recast character, world.openDialogue.2) := by
  have hstart : ∀ id, world.session.start (world.recast character).graph id =
      world.session.start world.graph id := world.session.start_reword
  -- the trigger looks at the body and at who is there
  have hfire : (world.recast character).trigger.fire (world.recast character).body.rect
      (world.recast character).level.npcs (world.recast character).inDialogue =
        world.trigger.fire world.body.rect world.level.npcs world.inDialogue := rfl
  unfold openDialogue
  rw [hfire]
  cases world.trigger.fire world.body.rect world.level.npcs world.inDialogue with
  | mk trigger npc? =>
    cases npc? with
    | none => rfl
    | some npc =>
      simp only [session_recast, hstart]
      cases world.session.start world.graph npc.entry with
      | mk session answer =>
        cases answer with
        | error error => rfl
        | ok conversation => rfl

theorem recast_tick (intent : Intent) (dt : Float32) :
    (world.recast character).tick intent dt =
      ((world.tick intent dt).1.recast character, (world.tick intent dt).2) := by
  cases hmode : world.inDialogue with
  | true =>
    have hmode' : (world.recast character).inDialogue = true := hmode
    rw [tick_of_inDialogue hmode, tick_of_inDialogue hmode', recast_converse]
    rfl
  | false =>
    have hmode' : (world.recast character).inDialogue = false := hmode
    -- the trigger and the body go on alike
    have hmoved : (world.recast character).moved intent dt =
        (world.moved intent dt).recast character := rfl
    rw [tick_of_idle hmode, tick_of_idle hmode', hmoved, recast_openDialogue]
    split_ifs
    · rfl
    · rfl

/-! ### Putting the player somewhere -/

theorem recast_place (position : Vec2) :
    (world.recast character).place position = (world.place position).recast character := by
  unfold place
  rw [inDialogue_recast]
  split_ifs
  · rfl
  · rfl

theorem recast_settleAmong (reach : Rect) (dt : Float32) (positions : List Vec2) :
    (world.recast character).settleAmong reach dt positions =
      ((world.settleAmong reach dt positions).1.recast character,
        (world.settleAmong reach dt positions).2) := by
  induction positions generalizing world with
  | nil => rfl
  | cons position positions ih =>
    unfold settleAmong
    dsimp only
    rw [inDialogue_recast, recast_place, recast_tick]
    dsimp only
    -- whether the place will do is a matter of the body
    rw [body_recast, ih]
    split_ifs
    · rfl
    · rfl
    · rfl

theorem recast_approach (name : String) (dt : Float32) :
    (world.recast character).approach name dt =
      ((world.approach name dt).1.recast character, (world.approach name dt).2) := by
  have hnpc : (world.recast character).level.npc? name = world.level.npc? name := rfl
  unfold approach
  rw [hnpc]
  cases world.level.npc? name with
  | none => rfl
  | some npc => exact recast_settleAmong character world _ dt _

/-! ### Runs -/

theorem recast_perform (command : Command) :
    (world.recast character).perform command =
      ((world.perform command).1.recast character, (world.perform command).2) := by
  cases command with
  | tick intent dt => rw [perform, recast_tick]; rfl
  | place position => rw [perform, recast_place]; rfl
  | approach name dt => rw [perform, recast_approach]; rfl

/-- **A run** is the same for everybody. -/
theorem recast_run (commands : List Command) :
    (world.recast character).run commands =
      ((world.run commands).1.recast character, (world.run commands).2) := by
  induction commands generalizing world with
  | nil => rfl
  | cons command rest ih =>
    unfold run
    rw [recast_perform]
    dsimp only
    rw [ih]

/-! ### Views -/

/-- What is shown of an open conversation, with the text addressed to a character. -/
def DialogueView.addressed (character : Character) (shown : DialogueView) : DialogueView :=
  { shown with text := Text.address character.name shown.text }

theorem dialogueView?_recast :
    (world.recast character).dialogueView? =
      world.dialogueView?.map (DialogueView.addressed character) := by
  have hnode : world.session.currentNode? (world.recast character).graph =
      (world.session.currentNode? world.graph).map
        (Story.Node.reword (Text.address character.name)) := world.session.currentNode?_reword
  unfold dialogueView?
  rw [session_recast, hnode]
  cases world.session.currentNode? world.graph with
  | none => rfl
  | some node =>
    cases world.session.conversation? with
    | none => rfl
    | some conversation => rfl

/-- What is shown is on a node of the graph, and in its words. -/
theorem exists_node_of_dialogueView? {world : World} {shown : DialogueView}
    (h : world.dialogueView? = some shown) :
    ∃ node ∈ world.graph.nodes, node.id = shown.node ∧ node.text = shown.text := by
  unfold dialogueView? at h
  cases hnode : world.session.currentNode? world.graph with
  | none =>
    rw [hnode] at h
    cases h
  | some node =>
    obtain ⟨id, -, hget⟩ := Option.bind_eq_some_iff.1 hnode
    rw [hnode] at h
    cases hconversation : world.session.conversation? with
    | none =>
      rw [hconversation] at h
      cases h
    | some conversation =>
      rw [hconversation] at h
      obtain rfl := Option.some.inj h
      exact ⟨node, List.mem_of_find?_eq_some hget, rfl, rfl⟩

/-! ### Making a world -/

/-- **Every world** is the one that was written, recast. -/
theorem create_eq (rules : Rules) (level : Level) (script : Script) :
    create character rules level script =
      (create .unnamed rules level script).map (recast character) := by
  have hname : Character.unnamed.name = String.ofList Text.placeholder := rfl
  unfold create
  rw [Script.setUp_eq script character.name, hname]
  cases script.setUp (String.ofList Text.placeholder) with
  | error error => rfl
  | ok story =>
    dsimp only [Except.map, Prod.map]
    cases Camera.ofRules? rules.scrolling with
    | none => rfl
    | some camera => rfl

theorem nodes_of_create_unnamed {rules : Rules} {level : Level} {script : Script} {world : World}
    (h : create .unnamed rules level script = .ok world) : world.graph.nodes = script.nodes := by
  obtain ⟨graph, chapters, hsetUp, hplot⟩ := plot_of_create h
  obtain ⟨hgraph, -⟩ := Script.parts_of_setUp hsetUp
  have hworld : world.graph = graph := congrArg Plot.graph hplot
  rw [hworld, Graph.nodes_of_ofNodes hgraph]
  exact script.nodesFor_placeholder

/-- **Two students in one game**: the worlds of two students at one moment of it. -/
structure SameGame (script : Script) (world world' : World) : Prop where
  /-- Body, camera, trigger, session, chapters and partner are equal; only the student is another
  one, and the texts of the nodes are. -/
  rest : world' = { world with character := world'.character, graph := world'.graph }
  /-- The nodes are those of the script, addressed to the student. -/
  nodes : world.graph.nodes = script.nodesFor world.character.name
  nodes' : world'.graph.nodes = script.nodesFor world'.character.name
  /-- Whoever is approached is within reach of both students or of neither. -/
  approach : ∀ name dt, (world'.approach name dt).2 = (world.approach name dt).2
  /-- What is shown differs in the name, the heritage and the conversation. -/
  view : world'.view =
    { world.view with
      studentName := world'.character.name
      heritage := (world'.character.resolve .race).label
      dialogue := world'.view.dialogue }
  /-- A conversation is shown to both students or to neither. -/
  silent : world.view.dialogue = none → world'.view.dialogue = none
  /-- It differs in the text, which is that of one node of the script, addressed to the student. -/
  text : ∀ shown, world.view.dialogue = some shown →
    ∃ node ∈ script.nodes, node.id = shown.node ∧
      shown.text = Text.address world.character.name node.text ∧
      world'.view.dialogue =
        some { shown with text := Text.address world'.character.name node.text }

/-- Two recasts of a world that is as it was written. -/
theorem sameGame_recast {script : Script} {world : World}
    (hnodes : world.graph.nodes = script.nodes) (character other : Character) :
    SameGame script (world.recast character) (world.recast other) := by
  have hshown := dialogueView?_recast character world
  have hshown' := dialogueView?_recast other world
  constructor
  case rest => rfl
  case nodes => exact congrArg (List.map _) hnodes
  case nodes' => exact congrArg (List.map _) hnodes
  case approach =>
    intro name dt
    rw [recast_approach, recast_approach]
  case view => rfl
  case silent =>
    intro hnone
    have hwritten := Option.map_eq_none_iff.1 (hshown.symm.trans hnone)
    rw [hwritten] at hshown'
    exact hshown'
  case text =>
    intro shown hsome
    -- both texts are made from one draft, which is what a node of the script has
    obtain ⟨draft, hwritten, rfl⟩ := Option.map_eq_some_iff.1 (hshown.symm.trans hsome)
    obtain ⟨node, hnode, hid, htext⟩ := exists_node_of_dialogueView? hwritten
    rw [hwritten] at hshown'
    refine ⟨node, hnodes ▸ hnode, hid, ?_, ?_⟩
    · rw [htext]
      rfl
    · rw [htext]
      exact hshown'

/-- **The game is the same for everybody.** For two characters, with the same rules, level and
script, either no world can be made, and for the same reason, or there are two worlds. Then the
ticks of any commands have the same events, and the two worlds stay in one game: after any commands
they differ in the student and in the texts, and in nothing else. -/
theorem same_game_for_everybody (character other : Character) (rules : Rules) (level : Level)
    (script : Script) :
    (∃ error, create character rules level script = .error error ∧
      create other rules level script = .error error) ∨
    ∃ world world', create character rules level script = .ok world ∧
      create other rules level script = .ok world' ∧
      ∀ commands, (world'.run commands).2 = (world.run commands).2 ∧
        (world.run commands).1.character = character ∧
        (world'.run commands).1.character = other ∧
        SameGame script (world.run commands).1 (world'.run commands).1 := by
  rw [create_eq character, create_eq other]
  cases hcreate : create .unnamed rules level script with
  | error error => exact .inl ⟨error, rfl, rfl⟩
  | ok written =>
    refine .inr ⟨written.recast character, written.recast other, rfl, rfl, ?_⟩
    intro commands
    have hnodes : (written.run commands).1.graph.nodes = script.nodes := by
      rw [graph_run, nodes_of_create_unnamed hcreate]
    rw [recast_run, recast_run]
    exact ⟨rfl, rfl, rfl, sameGame_recast hnodes character other⟩

/-- A gate where the student is addressed. -/
def greeting : Script where
  outline := twoRooms.outline
  nodes := [{ id := "gate", speaker := "Guard", text := "Come in, \x7bname\x7d." }]

/-- Two students at the gate. -/
theorem same_game_for_everybody_greeting :
    ∃ world world' shown, create (Character.ofName "Morticia") {} porch greeting = .ok world ∧
      create (Character.ofName "Enid") {} porch greeting = .ok world' ∧
      (world.run (visit.take 1)).1.view.dialogue = some shown ∧
      shown.text = "Come in, Morticia." ∧
      (world'.run (visit.take 1)).1.view.dialogue =
        some { shown with text := "Come in, Enid." } := by
  have hcheck : (create (Character.ofName "Morticia") {} porch greeting).toOption.any
      (fun world => (world.run (visit.take 1)).1.view.dialogue.isSome) = true := by decide +kernel
  obtain ⟨made, hmade, hopen⟩ := exists_created hcheck
  obtain ⟨shown, hshown⟩ := Option.isSome_iff_exists.1 hopen
  rcases same_game_for_everybody (Character.ofName "Morticia") (Character.ofName "Enid") {} porch
    greeting with ⟨error, herror, -⟩ | ⟨world, world', hworld, hworld', hruns⟩
  · cases hmade.symm.trans herror
  · obtain rfl := Except.ok.inj (hmade.symm.trans hworld)
    obtain ⟨-, hcharacter, hother, hsame⟩ := hruns (visit.take 1)
    obtain ⟨node, hnode, -, htext, htext'⟩ := hsame.text shown hshown
    obtain rfl := List.mem_singleton.1 hnode
    rw [hcharacter] at htext
    rw [hother] at htext'
    exact ⟨made, world', shown, hmade, hworld', hshown, htext.trans (by decide), htext'⟩

end World

end Sidescroller
