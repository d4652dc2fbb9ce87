import Sidescroller.Proofs.Story.Conversation
import Sidescroller.Proofs.Story.Reach

/-!
# The trail of a conversation

The nodes that a conversation has been on, in order: those that were completed in it, and the one it
is on. The trail is what a conversation makes of the graph, and `Graph.reachable` is what a search
makes of it; here they are shown to agree.

* `Ending.trail` — the trail of a conversation that has ended;
* `Underway` — the invariant of a conversation: its trail is a walk over listed nodes;
* `Session.chooseAll` — choices that are taken one after the other;
* `trails_agree_with_reachable` — all trails are walks over listed nodes, and there is a trail to
  every listed node.
-/

namespace Sidescroller.Story

/-! ### Trails -/

/-- The nodes that a conversation has been on, the last one last. A conversation that ends by
leaving its last node has completed it; one that is cancelled has not. -/
def Ending.trail (ending : Ending) : List String :=
  match ending.reason with
  | .cancelled => ending.completed ++ [ending.lastNode]
  | _ => ending.completed

/-- **A trail over listed nodes**: a walk from the start, all nodes of which the search lists. -/
structure Graph.Trail (graph : Graph) (start : String) (trail : List String) : Prop where
  walk : graph.Walk start trail
  listed : ∀ id ∈ trail, graph.Lists start id

namespace Graph.Trail

variable {graph : Graph} {start source target : String} {trail : List String}

theorem single (h : graph.contains start = true) : graph.Trail start [start] where
  walk := .single graph start
  listed := by
    intro id hid
    obtain rfl := List.mem_singleton.1 hid
    exact lists_start h

/-- A choice leads on to a node of the graph. -/
theorem link (h : graph.Trail start (trail ++ [source])) (hlink : graph.Link source target)
    (htarget : graph.contains target = true) :
    graph.Trail start (trail ++ [source] ++ [target]) where
  walk := h.walk.link hlink
  listed := by
    intro id hid
    rcases List.mem_append.1 hid with hid | hid
    · exact h.listed id hid
    · obtain rfl := List.mem_singleton.1 hid
      have hsource := h.listed source (List.mem_append_right _ List.mem_cons_self)
      exact hsource.link hlink htarget

end Graph.Trail

/-! ### Trails of a session -/

namespace Session

variable {session session' : Session} {graph : Graph} {ending : Ending}

/-- **A conversation ends where it is**: whatever ends it, its trail is the one it was on. -/
theorem Moves.trail_of_ended (h : Moves graph session session' (some (.ended ending))) :
    session.cursor = .active ending.conversation ending.lastNode ∧
      ending.trail = session.pending ++ [ending.lastNode] := by
  have hcloses := h.closes
  refine ⟨hcloses.cursor_eq, ?_⟩
  rw [Ending.trail, hcloses.handed_eq, Ending.logged]
  -- the last node comes from the log, or else it is put behind
  cases ending.reason with
  | cancelled => rw [List.append_nil]
  | terminal => rfl
  | brokenReference missing => rfl

/-- A choice that is taken leads along a link of the graph. -/
theorem Leaves.link {conversation : ConversationId} {node : Node} {choice : Option Choice}
    {departure : Departure} {next : String}
    (h : Leaves graph session conversation node choice session' departure)
    (hchoice : ∀ taken, choice = some taken → taken ∈ node.choices)
    (hnext : choice.bind (·.next) = some next) : graph.Link node.id next := by
  obtain ⟨taken, htaken, hnext⟩ := Option.bind_eq_some_iff.1 hnext
  exact ⟨node, h.get?_eq, List.mem_filterMap.2 ⟨taken, hchoice taken htaken, hnext⟩⟩

end Session

/-! ### The invariant of a conversation -/

/-- **A conversation under way** that was opened on `start`: while it is open, its nodes are a
trail. No conversation that is opened later has its identity. -/
structure Underway (graph : Graph) (start : String) (conversation : ConversationId)
    (session : Session) : Prop where
  number_lt : conversation.number < session.nextConversation
  trail : ∀ id, session.cursor = .active conversation id →
    graph.Trail start (session.pending ++ [id])

namespace Underway

variable {graph : Graph} {start : String} {conversation : ConversationId}
  {session session' : Session}

theorem opened (h : (session.start graph start).2 = .ok conversation) :
    Underway graph start conversation (session.start graph start).1 := by
  rcases session.start_cases graph start with ⟨error, hcase⟩ | ⟨-, hnode, hcase⟩
  · rw [hcase] at h
    cases h
  · rw [hcase] at h ⊢
    obtain rfl := Except.ok.inj h
    refine ⟨Nat.lt_succ_self _, ?_⟩
    intro id hactive
    obtain ⟨-, rfl⟩ := Cursor.active.inj hactive
    exact .single hnode

/-- **One move** keeps the conversation on a trail. -/
theorem moves (h : Underway graph start conversation session) {notice : Option Notice}
    (hmove : Session.Moves graph session session' notice) :
    Underway graph start conversation session' := by
  cases hmove with
  | stays => exact h
  | opens hidle hnode =>
    refine ⟨Nat.lt_succ_of_lt h.number_lt, ?_⟩
    intro id hactive
    -- this is another conversation
    obtain ⟨rfl, -⟩ := Cursor.active.inj hactive
    exact absurd h.number_lt (Nat.lt_irrefl _)
  | highlights hactive hget hlt => exact ⟨h.number_lt, h.trail⟩
  | continues hleaves hchoice hnext =>
    refine ⟨hleaves.nextConversation_eq ▸ h.number_lt, ?_⟩
    intro id hactive
    obtain ⟨hlink, hnode, hcursor, hpending⟩ := hleaves.of_continued hnext
    rw [hcursor] at hactive
    obtain ⟨rfl, rfl⟩ := Cursor.active.inj hactive
    rw [hpending]
    exact (h.trail _ hleaves.cursor_eq).link (hleaves.link hchoice hlink) hnode
  | ends hleaves hchoice hending =>
    refine ⟨hleaves.nextConversation_eq ▸ h.number_lt, ?_⟩
    intro id hactive
    obtain ⟨reason, -, -, hcursor, -⟩ := hleaves.of_ended hending
    rw [hcursor] at hactive
    cases hactive
  | cancels hactive => exact ⟨h.number_lt, nofun⟩

/-- When the conversation ends, its trail ends on its last node. -/
theorem arrived (h : Underway graph start conversation session) {ending : Ending}
    (hmove : Session.Moves graph session session' (some (.ended ending)))
    (hconversation : ending.conversation = conversation) :
    graph.Trail start ending.trail ∧ ending.trail.getLast? = some ending.lastNode := by
  obtain ⟨hcursor, htrail⟩ := hmove.trail_of_ended
  rw [hconversation] at hcursor
  rw [htrail]
  exact ⟨h.trail _ hcursor, List.getLast?_concat⟩

/-- **A run of operations** keeps the conversation on a trail, and when it ends in the run it ends
on one. -/
theorem play (h : Underway graph start conversation session) {operations : List Operation}
    (hon : ∀ operation ∈ operations, operation.On graph) :
    Underway graph start conversation (Operation.play session operations).1 ∧
      ∀ ending, .ended ending ∈ Operation.notices session operations →
        ending.conversation = conversation →
        graph.Trail start ending.trail ∧ ending.trail.getLast? = some ending.lastNode := by
  induction operations generalizing session with
  | nil => exact ⟨h, nofun⟩
  | cons operation rest ih =>
    rw [List.forall_mem_cons] at hon
    have hmove := operation.moves session hon.1
    obtain ⟨hlast, hlater⟩ := ih (h.moves hmove) hon.2
    refine ⟨hlast, ?_⟩
    intro ending hending hconversation
    rcases List.mem_append.1 hending with hnow | hrest
    · rw [Option.mem_toList] at hnow
      rw [hnow] at hmove
      exact h.arrived hmove hconversation
    · exact hlater ending hrest hconversation

end Underway

/-! ### Getting to a node -/

namespace Session

variable {session : Session} {graph : Graph} {id start : String}

/-- Takes choices one after the other, as long as none of them is refused. -/
def chooseAll (graph : Graph) (session : Session) (indices : List Nat) :
    Except SessionError Session :=
  indices.foldlM (fun session index =>
    (session.choose graph index).2.map fun _ => (session.choose graph index).1) session

theorem chooseAll_concat {indices : List Nat} {index : Nat} {last last' : Session}
    {departure : Departure} (hall : session.chooseAll graph indices = .ok last)
    (hchoose : last.choose graph index = (last', .ok departure)) :
    session.chooseAll graph (indices ++ [index]) = .ok last' := by
  rw [chooseAll] at hall ⊢
  rw [List.foldlM_append, hall]
  change last.chooseAll graph [index] = _
  rw [chooseAll, List.foldlM_cons, hchoose]
  rfl

theorem start_of_idle (hidle : session.cursor = .idle) (hnode : graph.contains id = true) :
    ∃ conversation, (session.start graph id).2 = .ok conversation ∧
      (session.start graph id).1.cursor = .active conversation id := by
  rw [start_of_contains hidle hnode]
  exact ⟨_, rfl, rfl⟩

/-- A choice that leads to a node of the graph takes the session there. -/
theorem choose_of_choice {conversation : ConversationId} {node : Node} {choice : Choice}
    {index : Nat} {next : String} (hcursor : session.cursor = .active conversation node.id)
    (hget : graph.get? node.id = some node) (hchoice : node.choices[index]? = some choice)
    (hnext : choice.next = some next) (hcontains : graph.contains next = true) :
    ∃ session' departure, session.choose graph index = (session', .ok departure) ∧
      session'.cursor = .active conversation next := by
  obtain ⟨session', departure, hok, hleaves⟩ := choose_leaves hcursor hget hchoice
  refine ⟨session', departure, hok, ?_⟩
  rcases hleaves.goes with ⟨next', hnext', -, -, hcursor', -⟩ | ⟨reason, hreason, -⟩
  · obtain rfl := Option.some.inj (hnext.symm.trans hnext')
    exact hcursor'
  · rcases hreason with ⟨hnone, -⟩ | ⟨missing, hmissing, hbroken, -⟩
    · cases hnext.symm.trans hnone
    · obtain rfl := Option.some.inj (hnext.symm.trans hmissing)
      cases hcontains.symm.trans hbroken

/-- **A node that is reached** can be talked to: there are choices that lead to it from the start,
whatever an idle session has been through before. -/
theorem exists_chooseAll {node : Node} (h : graph.Reaches start node) :
    ∃ indices, ∀ session : Session, session.cursor = .idle →
      ∃ conversation last, (session.start graph start).2 = .ok conversation ∧
        (session.start graph start).1.chooseAll graph indices = .ok last ∧
        last.cursor = .active conversation node.id := by
  induction h with
  | @start node hnode =>
    refine ⟨[], ?_⟩
    intro session hidle
    obtain ⟨conversation, hstart, hcursor⟩ :=
      start_of_idle hidle (Graph.contains_of_get? hnode)
    refine ⟨conversation, _, hstart, rfl, ?_⟩
    rw [hcursor, Graph.id_of_get? hnode]
  | @link parent node target hparent htarget hnode ih =>
    obtain ⟨indices, ih⟩ := ih
    obtain ⟨choice, hmem, hnext⟩ := List.mem_filterMap.1 htarget
    obtain ⟨index, hindex⟩ := List.mem_iff_getElem?.1 hmem
    refine ⟨indices ++ [index], ?_⟩
    intro session hidle
    obtain ⟨conversation, last, hstart, hall, hcursor⟩ := ih session hidle
    -- one more choice leads from the parent to the node
    obtain ⟨last', departure, hchoose, hcursor'⟩ :=
      choose_of_choice hcursor hparent.get?_eq hindex hnext (Graph.contains_of_get? hnode)
    refine ⟨conversation, last', hstart, chooseAll_concat hall hchoose, ?_⟩
    rw [hcursor', Graph.id_of_get? hnode]

end Session

/-- **Conversations and the search agree.** For every graph and every node of it to start on.

Whatever operations follow the opening of a conversation, its nodes are a walk from the start along
choices, and the search lists all of them: while the conversation is open these are the nodes
completed in it and the current one, and when it ends these and the last one, unless that one has
been completed by leaving it. The highlight adds nothing to them, and leaving the conversation does
not either.

And to each node that the search lists there are choices that take an idle session to it, none of
which is refused. -/
theorem trails_agree_with_reachable (graph : Graph) (start : String)
    (hstart : graph.contains start = true) :
    (∀ session : Session, session.cursor = .idle →
      ∃ conversation, (session.start graph start).2 = .ok conversation ∧
      ∀ operations, (∀ operation ∈ operations, operation.On graph) →
        let opened := (session.start graph start).1
        let last := (Operation.play opened operations).1
        (∀ id, last.cursor = .active conversation id →
          graph.Trail start (last.pending ++ [id]) ∧
          (∀ delta, (last.moveSelection graph delta).cursor = last.cursor ∧
            (last.moveSelection graph delta).pending = last.pending) ∧
          last.cancel.2 = some ⟨conversation, id, last.pending, .cancelled⟩) ∧
        ∀ ending, .ended ending ∈ Operation.notices opened operations →
          ending.conversation = conversation →
          graph.Trail start ending.trail ∧ ending.trail.getLast? = some ending.lastNode) ∧
    ∀ node ∈ graph.reachable start, ∃ indices, ∀ session : Session, session.cursor = .idle →
      ∃ conversation last, (session.start graph start).2 = .ok conversation ∧
        (session.start graph start).1.chooseAll graph indices = .ok last ∧
        last.cursor = .active conversation node.id ∧ last.currentNode? graph = some node := by
  constructor
  · -- whatever is done after the opening, the conversation is underway from the start
    intro session hidle
    obtain ⟨conversation, hopened, -⟩ := Session.start_of_idle hidle hstart
    refine ⟨conversation, hopened, ?_⟩
    intro operations hon opened last
    obtain ⟨hlast, hendings⟩ := (Underway.opened hopened).play hon
    refine ⟨?_, hendings⟩
    intro id hactive
    refine ⟨hlast.trail id hactive, ?_, ?_⟩
    · intro delta
      obtain ⟨selected, h⟩ := last.moveSelection_eq graph delta
      rw [h]
      exact ⟨rfl, rfl⟩
    · rw [Session.cancel_of_active hactive]
  · -- the choices are read off the links to the node, which do not depend on the session
    intro node hnode
    have hreaches := Graph.mem_reachable_iff.1 hnode
    obtain ⟨indices, hindices⟩ := Session.exists_chooseAll hreaches
    refine ⟨indices, ?_⟩
    intro session hidle
    obtain ⟨conversation, last, hopened, hall, hcursor⟩ := hindices session hidle
    exact ⟨conversation, last, hopened, hall, hcursor,
      Session.currentNode?_of_active hcursor hreaches.get?_eq⟩

/-- Two nodes that lead to each other, and one of them to a node that is missing. -/
theorem trails_agree_with_reachable_cycle :
    let gate : Node :=
      { id := "gate"
        speaker := "Guard"
        text := "In?"
        choices := [{ text := "In.", next := some "hall" }] }
    let hall : Node :=
      { id := "hall"
        speaker := "Guard"
        text := "Out?"
        choices :=
          [{ text := "Out.", next := some "gate" }, { text := "Up.", next := some "attic" }] }
    let graph : Graph := ⟨[gate, hall], by decide⟩
    graph.contains "gate" = true ∧ (Session.fresh.start graph "gate").2 = .ok ⟨1⟩ ∧
      graph.Trail "gate" ["gate", "hall", "gate"] ∧
      Operation.notices (Session.fresh.start graph "gate").1
          [.choose graph 0, .moveSelection graph 1, .confirm graph] =
        [.ended ⟨⟨1⟩, "hall", ["gate", "hall"], .brokenReference "attic"⟩] ∧
      graph.Trail "gate" ["gate", "hall"] ∧
      ∃ indices conversation last,
        (Session.fresh.start graph "gate").1.chooseAll graph indices = .ok last ∧
        last.cursor = .active conversation "hall" := by
  intro gate hall graph
  have hstart : graph.contains "gate" = true := by decide
  obtain ⟨hsound, hcomplete⟩ := trails_agree_with_reachable graph "gate" hstart
  obtain ⟨conversation, hopened, hrun⟩ := hsound Session.fresh rfl
  obtain rfl : conversation = ⟨1⟩ := (Except.ok.inj hopened).symm
  have hback := (hrun [.choose graph 0, .choose graph 0]
    (by simp [Operation.On, Operation.graph?])).1 "gate" (by decide)
  have hnotices : Operation.notices (Session.fresh.start graph "gate").1
      [.choose graph 0, .moveSelection graph 1, .confirm graph] =
        [.ended ⟨⟨1⟩, "hall", ["gate", "hall"], .brokenReference "attic"⟩] := by decide
  have hbroken := (hrun [.choose graph 0, .moveSelection graph 1, .confirm graph]
    (by simp [Operation.On, Operation.graph?])).2 _ (by rw [hnotices]; exact List.mem_cons_self) rfl
  have hgate : graph.Reaches "gate" gate := .start (by decide)
  have htarget : "hall" ∈ gate.targets := by decide
  have hlisted : hall ∈ graph.reachable "gate" :=
    Graph.mem_reachable_iff.2 (hgate.link htarget (by decide))
  obtain ⟨indices, hindices⟩ := hcomplete hall hlisted
  obtain ⟨conversation, last, -, hchosen, hcursor, -⟩ := hindices Session.fresh rfl
  exact ⟨hstart, hopened, hback.1, hnotices, hbroken.1, indices, conversation, last, hchosen,
    hcursor⟩

end Sidescroller.Story
