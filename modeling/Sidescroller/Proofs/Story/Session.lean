import Mathlib.Tactic.SplitIfs
import Sidescroller.Story.Session

/-!
# What the operations of a session do

Three operations leave a node, and all of them do it in the same way, which `Leaves` describes once:
what is logged and granted, and where the session goes. All other ways out of an operation change
nothing, or only where the session is.

Going on and ending are written for any session, also for an idle one. But whoever goes on or ends
comes from a node, so a conversation is open, and what is written for the other case is never used:
`Session.enter_of_active` and `Session.close_of_active` are all that the operations need.

* `Session.choose_cases`, `Session.chooseNumeric_cases`, `Session.confirm_cases` — such an operation
  leaves a node, or it fails and changes nothing;
* `Session.start_cases` — a conversation is opened, or nothing happens;
* `Session.cancel_cases` — a conversation is closed, or none was open.
-/

namespace Sidescroller.Story

theorem Graph.id_of_get? {graph : Graph} {id : String} {node : Node}
    (h : graph.get? id = some node) : node.id = id := by
  unfold Graph.get? at h
  simpa using List.find?_some h

namespace Session

variable {session session' : Session} {graph : Graph}

/-! ### Steps -/

theorem gain_fst (session : Session) (item : Option String) :
    (session.gain item).1 = { session with inventory := session.inventory ++ item.toList } := by
  cases item with
  | none => simp [gain]
  | some item => rfl

theorem gain_snd (session : Session) (item : Option String) :
    (session.gain item).2 = item.toList := by
  cases item <;> rfl

/-- What the completion of a node grants. -/
def grants (session : Session) (node : Node) : List String :=
  if session.hasCompleted node.id then [] else node.grantsItem.toList

theorem complete_snd (session : Session) (node : Node) :
    (session.complete node).2 = session.grants node := by
  unfold complete grants
  split_ifs
  · rfl
  · exact gain_snd session _

theorem complete_fst (session : Session) (node : Node) :
    (session.complete node).1 =
      { session with
        completed := session.completed ++ [node.id]
        seen := session.seen.insert node.id
        inventory := session.inventory ++ session.grants node
        pending := session.pending ++ [node.id] } := by
  unfold complete grants
  split_ifs
  · simp
  · dsimp only
    rw [gain_fst]

theorem currentId?_of_active {conversation : ConversationId} {id : String}
    (hactive : session.cursor = .active conversation id) : session.currentId? = some id := by
  rw [currentId?, hactive]

theorem currentId?_of_idle (hidle : session.cursor = .idle) : session.currentId? = none := by
  rw [currentId?, hidle]

theorem enter_of_active {conversation : ConversationId} {current : String}
    (hactive : session.cursor = .active conversation current) (id : String) :
    session.enter id = { session with cursor := .active conversation id, selected := 0 } := by
  unfold enter
  rw [hactive]

/-- The identity of an ending is that of the open conversation. -/
theorem close_of_active {conversation : ConversationId} {current : String}
    (hactive : session.cursor = .active conversation current) (lastNode : String)
    (reason : EndReason) :
    session.close lastNode reason =
      ({ session with cursor := .idle, selected := 0, pending := [] },
        ⟨conversation, lastNode, session.pending, reason⟩) := by
  unfold close conversation?
  rw [hactive]

/-! ### Leaving a node -/

/-- **Leaving a node**, by a choice or, where there are none, without one. -/
structure Leaves (graph : Graph) (session : Session) (conversation : ConversationId) (node : Node)
    (choice : Option Choice) (session' : Session) (departure : Departure) : Prop where
  /-- The node is the current one. -/
  cursor_eq : session.cursor = .active conversation node.id
  /-- The node is one of the graph. -/
  get?_eq : graph.get? node.id = some node
  /-- The answer names the node. -/
  left_eq : departure.left = node.id
  /-- The node grants first, then the choice. -/
  items_eq : departure.items = session.grants node ++ (choice.bind (·.consequence)).toList
  /-- What is granted goes to the inventory. -/
  inventory_eq : session'.inventory = session.inventory ++ departure.items
  /-- The node is logged. -/
  completed_eq : session'.completed = session.completed ++ [node.id]
  /-- The node is known to be completed. -/
  seen_eq : session'.seen = session.seen.insert node.id
  /-- The highlight goes back to the first choice. -/
  selected_eq : session'.selected = 0
  /-- No conversation is opened. -/
  nextConversation_eq : session'.nextConversation = session.nextConversation
  /-- The conversation goes on to a node of the graph, or it ends. -/
  goes :
    (∃ next, choice.bind (·.next) = some next ∧ graph.contains next = true ∧
      departure.transition = .continued next ∧ session'.cursor = .active conversation next ∧
      session'.pending = session.pending ++ [node.id]) ∨
    ∃ reason,
      (choice.bind (·.next) = none ∧ reason = .terminal ∨
        ∃ missing, choice.bind (·.next) = some missing ∧ graph.contains missing = false ∧
          reason = .brokenReference missing) ∧
      departure.transition =
        .ended ⟨conversation, node.id, session.pending ++ [node.id], reason⟩ ∧
      session'.cursor = .idle ∧ session'.pending = []

section Leaves

variable {conversation : ConversationId} {node : Node} {choice : Option Choice}
  {departure : Departure}

/-- The node that is left is the one that the session is on. -/
theorem Leaves.node_eq {conversation' : ConversationId} {node' : Node}
    (h : Leaves graph session conversation node choice session' departure)
    (hcursor : session.cursor = .active conversation' node'.id)
    (hget : graph.get? node'.id = some node') : conversation = conversation' ∧ node = node' := by
  obtain ⟨hconversation, hid⟩ := Cursor.active.inj (h.cursor_eq.symm.trans hcursor)
  refine ⟨hconversation, ?_⟩
  -- ids are looked up in one graph
  have hnode := h.get?_eq
  rw [hid, hget] at hnode
  exact (Option.some.inj hnode).symm

theorem Leaves.of_continued {next : String}
    (h : Leaves graph session conversation node choice session' departure)
    (hnext : departure.transition = .continued next) :
    choice.bind (·.next) = some next ∧ graph.contains next = true ∧
      session'.cursor = .active conversation next ∧
      session'.pending = session.pending ++ [node.id] := by
  rcases h.goes with
    ⟨other, hlink, hnode, htransition, hcursor, hpending⟩ | ⟨reason, -, htransition, -⟩
  · rw [htransition] at hnext
    obtain rfl := Transition.continued.inj hnext
    exact ⟨hlink, hnode, hcursor, hpending⟩
  · rw [htransition] at hnext
    cases hnext

theorem Leaves.of_ended {ending : Ending}
    (h : Leaves graph session conversation node choice session' departure)
    (hending : departure.transition = .ended ending) :
    ∃ reason, ending = ⟨conversation, node.id, session.pending ++ [node.id], reason⟩ ∧
      reason ≠ .cancelled ∧ session'.cursor = .idle ∧ session'.pending = [] := by
  rcases h.goes with
    ⟨next, -, -, htransition, -⟩ | ⟨reason, hreason, htransition, hcursor, hpending⟩
  · rw [htransition] at hending
    cases hending
  · rw [htransition] at hending
    refine ⟨reason, (Transition.ended.inj hending).symm, ?_, hcursor, hpending⟩
    rcases hreason with ⟨-, rfl⟩ | ⟨missing, -, -, rfl⟩
    · exact nofun
    · exact nofun

end Leaves

theorem activeNode_cases (session : Session) (graph : Graph) :
    (∃ error, session.activeNode graph = .error error) ∨
      ∃ conversation node, session.activeNode graph = .ok node ∧
        session.cursor = .active conversation node.id ∧ graph.get? node.id = some node := by
  unfold activeNode currentId?
  cases hcursor : session.cursor with
  | idle => exact Or.inl ⟨_, rfl⟩
  | active conversation id =>
    -- the current id may be of another graph
    cases hget : graph.get? id with
    | none => exact Or.inl ⟨.unknownNode id, by simp only [hget]⟩
    | some node =>
      obtain rfl := Graph.id_of_get? hget
      exact Or.inr ⟨conversation, node, by simp only [hget], rfl, hget⟩

theorem currentNode?_cases (session : Session) (graph : Graph) :
    session.currentNode? graph = none ∨
      ∃ node, session.currentNode? graph = some node ∧ session.activeNode graph = .ok node := by
  unfold currentNode? activeNode
  cases session.currentId? with
  | none => exact Or.inl rfl
  | some id =>
    cases hget : graph.get? id with
    | none => exact Or.inl hget
    | some node => exact Or.inr ⟨node, hget, by simp only [hget]⟩

theorem currentNode?_of_active {conversation : ConversationId} {id : String} {node : Node}
    (hactive : session.cursor = .active conversation id) (hget : graph.get? id = some node) :
    session.currentNode? graph = some node := by
  rw [currentNode?, currentId?_of_active hactive, Option.bind_some, hget]

theorem activeNode_of_active {conversation : ConversationId} {node : Node}
    (hactive : session.cursor = .active conversation node.id)
    (hget : graph.get? node.id = some node) :
    session.activeNode graph = .ok node := by
  unfold activeNode
  simp only [currentId?_of_active hactive, hget]

/-! ### Where a session goes from a node -/

theorem follow_none {conversation : ConversationId} {current : String}
    (hactive : session.cursor = .active conversation current) (node : Node) :
    session.follow graph node none =
      ({ session with cursor := .idle, selected := 0, pending := [] },
        .ended ⟨conversation, node.id, session.pending, .terminal⟩) := by
  unfold follow
  rw [close_of_active hactive]

theorem follow_of_contains {conversation : ConversationId} {current next : String}
    (hactive : session.cursor = .active conversation current) (node : Node)
    (hcontains : graph.contains next = true) :
    session.follow graph node (some next) =
      ({ session with cursor := .active conversation next, selected := 0 }, .continued next) := by
  unfold follow
  dsimp only
  rw [if_pos hcontains, enter_of_active hactive]

theorem follow_of_missing {conversation : ConversationId} {current missing : String}
    (hactive : session.cursor = .active conversation current) (node : Node)
    (hmissing : graph.contains missing = false) :
    session.follow graph node (some missing) =
      ({ session with cursor := .idle, selected := 0, pending := [] },
        .ended ⟨conversation, node.id, session.pending, .brokenReference missing⟩) := by
  unfold follow
  dsimp only
  rw [hmissing, if_neg Bool.false_ne_true, close_of_active hactive]

theorem leaves_of_choice {conversation : ConversationId} {node : Node}
    (hcursor : session.cursor = .active conversation node.id)
    (hget : graph.get? node.id = some node) (choice : Choice) :
    let gained := (session.complete node).1.gain choice.consequence
    let followed := gained.1.follow graph node choice.next
    Leaves graph session conversation node (some choice) followed.1
      ⟨node.id, (session.complete node).2 ++ gained.2, followed.2⟩ := by
  dsimp only
  -- nothing that is granted moves the session, so the conversation is still open
  have hon : ((session.complete node).1.gain choice.consequence).1.cursor =
      .active conversation node.id := by
    rw [gain_fst, complete_fst]
    exact hcursor
  cases hnext : choice.next with
  | none =>
    -- the choice ends the conversation
    rw [follow_none hon, gain_fst, gain_snd, complete_fst, complete_snd]
    refine ⟨hcursor, hget, rfl, rfl, List.append_assoc _ _ _, rfl, rfl, rfl, rfl, Or.inr ?_⟩
    exact ⟨.terminal, Or.inl ⟨hnext, rfl⟩, rfl, rfl, rfl⟩
  | some next =>
    cases hcontains : graph.contains next with
    | true =>
      rw [follow_of_contains hon node hcontains, gain_fst, gain_snd, complete_fst, complete_snd]
      refine ⟨hcursor, hget, rfl, rfl, List.append_assoc _ _ _, rfl, rfl, rfl, rfl, Or.inl ?_⟩
      exact ⟨next, hnext, hcontains, rfl, rfl, rfl⟩
    | false =>
      -- the link is broken, which ends the conversation as well
      rw [follow_of_missing hon node hcontains, gain_fst, gain_snd, complete_fst, complete_snd]
      refine ⟨hcursor, hget, rfl, rfl, List.append_assoc _ _ _, rfl, rfl, rfl, rfl, Or.inr ?_⟩
      exact ⟨.brokenReference next, Or.inr ⟨next, hnext, hcontains, rfl⟩, rfl, rfl, rfl⟩

theorem leaves_of_leaf {conversation : ConversationId} {node : Node}
    (hcursor : session.cursor = .active conversation node.id)
    (hget : graph.get? node.id = some node) :
    let closed := (session.complete node).1.close node.id .terminal
    Leaves graph session conversation node none closed.1
      ⟨node.id, (session.complete node).2, .ended closed.2⟩ := by
  dsimp only
  have hon : (session.complete node).1.cursor = .active conversation node.id := by
    rw [complete_fst]
    exact hcursor
  rw [close_of_active hon, complete_fst, complete_snd]
  exact ⟨hcursor, hget, rfl, (List.append_nil _).symm, rfl, rfl, rfl, rfl, rfl,
    Or.inr ⟨_, Or.inl ⟨rfl, rfl⟩, rfl, rfl, rfl⟩⟩

/-! ### Operations -/

theorem choose_cases (session : Session) (graph : Graph) (index : Nat) :
    (∃ error, session.choose graph index = (session, .error error)) ∨
      ∃ conversation node choice session' departure,
        session.choose graph index = (session', .ok departure) ∧
        node.choices[index]? = some choice ∧
        Leaves graph session conversation node (some choice) session' departure := by
  unfold choose
  rcases activeNode_cases session graph with ⟨error, h⟩ | ⟨conversation, node, h, hcursor, hget⟩
  · rw [h]
    exact Or.inl ⟨error, rfl⟩
  · rw [h]
    cases hchoice : node.choices[index]? with
    | none => exact Or.inl ⟨.choiceOutOfRange index node.choiceCount, by simp only [hchoice]⟩
    | some choice =>
      have hleaves := leaves_of_choice hcursor hget choice
      exact Or.inr ⟨conversation, node, choice, _, _, by simp only [hchoice], hchoice, hleaves⟩

/-- A choice of the current node can be taken. -/
theorem choose_leaves {conversation : ConversationId} {node : Node} {choice : Choice} {index : Nat}
    (hcursor : session.cursor = .active conversation node.id)
    (hget : graph.get? node.id = some node) (hchoice : node.choices[index]? = some choice) :
    ∃ session' departure, session.choose graph index = (session', .ok departure) ∧
      Leaves graph session conversation node (some choice) session' departure := by
  unfold choose
  rw [activeNode_of_active hcursor hget]
  simp only [hchoice]
  exact ⟨_, _, rfl, leaves_of_choice hcursor hget choice⟩

theorem chooseNumeric_cases (session : Session) (graph : Graph) (key : UInt8) :
    session.chooseNumeric graph key = (session, none) ∨
      ∃ conversation node choice session' departure,
        session.chooseNumeric graph key = (session', some departure) ∧
        0 < key.toNat ∧ node.choices[key.toNat - 1]? = some choice ∧
        Leaves graph session conversation node (some choice) session' departure := by
  unfold chooseNumeric
  rcases currentNode?_cases session graph with h | ⟨node, h, -⟩
  · rw [h]
    exact Or.inl rfl
  · rw [h]
    dsimp only
    split_ifs with hkey
    · rcases choose_cases session graph (key.toNat - 1) with
        ⟨error, hchoose⟩ | ⟨conversation, node, choice, session', departure, hchoose, hleaves⟩
      · rw [hchoose]
        exact Or.inl rfl
      · rw [hchoose]
        exact Or.inr ⟨conversation, node, choice, session', departure, rfl, hkey.1, hleaves⟩
    · -- the key numbers no choice
      exact Or.inl rfl

/-- The highlighted choice is taken, and where there is none the node has no choices. -/
theorem confirm_cases (session : Session) (graph : Graph) :
    (∃ error, session.confirm graph = (session, .error error)) ∨
      ∃ conversation node choice session' departure,
        session.confirm graph = (session', .ok departure) ∧
        node.choices[session.selected]? = choice ∧ (choice = none → node.isLeaf = true) ∧
        Leaves graph session conversation node choice session' departure := by
  unfold confirm
  rcases activeNode_cases session graph with ⟨error, h⟩ | ⟨conversation, node, h, hcursor, hget⟩
  · rw [h]
    exact Or.inl ⟨error, rfl⟩
  · rw [h]
    dsimp only
    split_ifs with hleaf
    · -- nothing is highlighted
      have hnone : node.choices[session.selected]? = none := by
        rw [List.isEmpty_iff.1 hleaf]
        rfl
      exact Or.inr ⟨conversation, node, none, _, _, rfl, hnone, fun _ => hleaf,
        leaves_of_leaf hcursor hget⟩
    · rcases choose_cases session graph session.selected with
        ⟨error, hchoose⟩ | ⟨conversation, node, choice, session', departure, hchoose, h⟩
      · exact Or.inl ⟨error, hchoose⟩
      · obtain ⟨hchoice, hleaves⟩ := h
        exact Or.inr ⟨conversation, node, some choice, session', departure, hchoose, hchoice, nofun,
          hleaves⟩

theorem start_of_contains {id : String} (hidle : session.cursor = .idle)
    (hnode : graph.contains id = true) :
    session.start graph id =
      ({ session with
          cursor := .active ⟨session.nextConversation⟩ id
          selected := 0
          pending := []
          nextConversation := session.nextConversation + 1 },
        .ok ⟨session.nextConversation⟩) := by
  unfold start
  rw [currentId?_of_idle hidle]
  dsimp only
  rw [if_pos hnode]
  rfl

theorem start_of_missing {id : String} (hidle : session.cursor = .idle)
    (hmissing : graph.contains id = false) :
    session.start graph id = (session, .error (.unknownNode id)) := by
  unfold start
  rw [currentId?_of_idle hidle]
  dsimp only
  rw [hmissing, if_neg Bool.false_ne_true]

theorem start_cases (session : Session) (graph : Graph) (id : String) :
    (∃ error, session.start graph id = (session, .error error)) ∨
      session.cursor = .idle ∧ graph.contains id = true ∧
        session.start graph id =
          ({ session with
              cursor := .active ⟨session.nextConversation⟩ id
              selected := 0
              pending := []
              nextConversation := session.nextConversation + 1 },
            .ok ⟨session.nextConversation⟩) := by
  cases hcursor : session.cursor with
  | active conversation current =>
    unfold start
    rw [currentId?_of_active hcursor]
    exact Or.inl ⟨_, rfl⟩
  | idle =>
    cases hcontains : graph.contains id with
    | true => exact Or.inr ⟨rfl, rfl, start_of_contains hcursor hcontains⟩
    | false => exact Or.inl ⟨_, start_of_missing hcursor hcontains⟩

theorem cancel_of_active {conversation : ConversationId} {node : String}
    (hactive : session.cursor = .active conversation node) :
    session.cancel =
      ({ session with cursor := .idle, selected := 0, pending := [] },
        some ⟨conversation, node, session.pending, .cancelled⟩) := by
  unfold cancel
  rw [currentId?_of_active hactive]
  dsimp only
  rw [close_of_active hactive]

theorem cancel_cases (session : Session) :
    session.cursor = .idle ∧ session.cancel = (session, none) ∨
      ∃ conversation node, session.cursor = .active conversation node ∧
        session.cancel =
          ({ session with cursor := .idle, selected := 0, pending := [] },
            some ⟨conversation, node, session.pending, .cancelled⟩) := by
  cases hcursor : session.cursor with
  | idle =>
    unfold cancel
    rw [currentId?_of_idle hcursor]
    exact Or.inl ⟨rfl, rfl⟩
  | active conversation node =>
    exact Or.inr ⟨conversation, node, rfl, cancel_of_active hcursor⟩

/-- Only the highlight moves. -/
theorem moveSelection_eq (session : Session) (graph : Graph) (delta : Int) :
    ∃ selected, session.moveSelection graph delta = { session with selected } := by
  unfold moveSelection
  split
  · exact ⟨_, rfl⟩
  · dsimp only
    split_ifs
    · exact ⟨_, rfl⟩
    · exact ⟨_, rfl⟩

end Session

end Sidescroller.Story
