import Sidescroller.Proofs.Story.Session

/-!
# The ledger of a session

A session keeps an inventory and a log of completed nodes. Over a run of operations, each of which
may be given another graph, both are the record of the departures that the operations returned:
nothing is lost, and nothing is added on the side.

* `Operation.Answers` — the operations that can leave a node, which `Operation.perform_cases` takes
  together;
* `Balanced` — the books agree with the departures so far;
* `Balanced.perform`, `Balanced.play` — every operation, and so every run, keeps them balanced;
* `ledger_of_play` — what this means for a session from the start, and what each departure grants.
-/

namespace Sidescroller.Story

/-- One call of an operation, with the graph that it is given. -/
inductive Operation where
  | start (graph : Graph) (id : String)
  | moveSelection (graph : Graph) (delta : Int)
  | choose (graph : Graph) (index : Nat)
  | chooseNumeric (graph : Graph) (key : UInt8)
  | confirm (graph : Graph)
  | cancel

namespace Operation

/-- The session after the operation, and the departure if it has left a node. -/
def perform (session : Session) : Operation → Session × Option Departure
  | start graph id => ((session.start graph id).1, none)
  | moveSelection graph delta => (session.moveSelection graph delta, none)
  | choose graph index =>
    ((session.choose graph index).1, (session.choose graph index).2.toOption)
  | chooseNumeric graph key => session.chooseNumeric graph key
  | confirm graph => ((session.confirm graph).1, (session.confirm graph).2.toOption)
  | cancel => (session.cancel.1, none)

/-- The graph that the operation is given. -/
def graph? : Operation → Option Graph
  | start graph _ => graph
  | moveSelection graph _ => graph
  | choose graph _ => graph
  | chooseNumeric graph _ => graph
  | confirm graph => graph
  | cancel => none

/-- The choice of a node that the operation takes, if there is such a choice. -/
def choice? (session : Session) (node : Node) : Operation → Option Choice
  | choose _ index => node.choices[index]?
  | chooseNumeric _ key => node.choices[key.toNat - 1]?
  | confirm _ => node.choices[session.selected]?
  | _ => none

variable {session : Session} {operation : Operation} {node : Node} {choice : Choice}

theorem mem_of_choice? (h : operation.choice? session node = some choice) :
    choice ∈ node.choices := by
  cases operation with
  | choose graph index => exact List.mem_of_getElem? h
  | chooseNumeric graph key => exact List.mem_of_getElem? h
  | confirm graph => exact List.mem_of_getElem? h
  | _ => cases h

/-- **The operations that answer** what the current node says, and so leave it. -/
inductive Answers : Operation → Prop
  | choose (graph : Graph) (index : Nat) : Answers (.choose graph index)
  | chooseNumeric (graph : Graph) (key : UInt8) : Answers (.chooseNumeric graph key)
  | confirm (graph : Graph) : Answers (.confirm graph)

/-- An answer leaves the current node, or it is refused and nothing happens. The node is left
without a choice only by a confirmation, if it has none. -/
theorem Answers.perform_cases (h : operation.Answers) (session : Session) :
    operation.perform session = (session, none) ∨
    ∃ graph conversation node choice session' departure,
      operation.perform session = (session', some departure) ∧
      operation.graph? = some graph ∧ operation.choice? session node = choice ∧
      (choice = none → operation = .confirm graph ∧ node.isLeaf = true) ∧
      Session.Leaves graph session conversation node choice session' departure := by
  cases h with
  | choose graph index =>
    rw [perform]
    rcases session.choose_cases graph index with
      ⟨error, h⟩ | ⟨conversation, node, choice, session', departure, h, hchoice, hleaves⟩
    · rw [h]
      exact Or.inl rfl
    · rw [h]
      exact Or.inr ⟨graph, conversation, node, some choice, session', departure, rfl, rfl, hchoice,
        nofun, hleaves⟩
  | chooseNumeric graph key =>
    rw [perform]
    rcases session.chooseNumeric_cases graph key with
      h | ⟨conversation, node, choice, session', departure, h, -, hchoice, hleaves⟩
    · -- the key numbers no choice
      exact Or.inl h
    · exact Or.inr ⟨graph, conversation, node, some choice, session', departure, h, rfl, hchoice,
        nofun, hleaves⟩
  | confirm graph =>
    rw [perform]
    rcases session.confirm_cases graph with
      ⟨error, h⟩ | ⟨conversation, node, choice, session', departure, h, hchoice, hleaf, hleaves⟩
    · rw [h]
      exact Or.inl rfl
    · -- the only answer that may come without a choice
      rw [h]
      exact Or.inr ⟨graph, conversation, node, choice, session', departure, rfl, rfl, hchoice,
        fun hnone => ⟨rfl, hleaf hnone⟩, hleaves⟩

/-- **An operation leaves a node or it does not touch the books.** -/
theorem perform_cases (session : Session) (operation : Operation) :
    ((operation.perform session).2 = none ∧
      (operation.perform session).1.completed = session.completed ∧
      (operation.perform session).1.seen = session.seen ∧
      (operation.perform session).1.inventory = session.inventory) ∨
    ∃ graph conversation node choice session' departure,
      operation.perform session = (session', some departure) ∧
      operation.graph? = some graph ∧ operation.choice? session node = choice ∧
      (choice = none → operation = .confirm graph ∧ node.isLeaf = true) ∧
      Session.Leaves graph session conversation node choice session' departure := by
  -- a refused answer changes nothing, and so nothing in the books
  have hrefused (h : operation.perform session = (session, none)) :
      (operation.perform session).2 = none ∧
        (operation.perform session).1.completed = session.completed ∧
        (operation.perform session).1.seen = session.seen ∧
        (operation.perform session).1.inventory = session.inventory := by
    rw [h]
    exact ⟨rfl, rfl, rfl, rfl⟩
  cases operation with
  | start graph id =>
    -- a conversation is opened on a node, but none is left
    left
    rw [perform]
    rcases session.start_cases graph id with ⟨error, h⟩ | ⟨-, -, h⟩
    · rw [h]
      exact ⟨rfl, rfl, rfl, rfl⟩
    · rw [h]
      exact ⟨rfl, rfl, rfl, rfl⟩
  | moveSelection graph delta =>
    left
    obtain ⟨selected, h⟩ := session.moveSelection_eq graph delta
    rw [perform, h]
    exact ⟨rfl, rfl, rfl, rfl⟩
  | choose graph index =>
    exact ((Answers.choose graph index).perform_cases session).imp_left hrefused
  | chooseNumeric graph key =>
    exact ((Answers.chooseNumeric graph key).perform_cases session).imp_left hrefused
  | confirm graph => exact ((Answers.confirm graph).perform_cases session).imp_left hrefused
  | cancel =>
    -- the conversation ends without its node being completed
    left
    rw [perform]
    rcases session.cancel_cases with ⟨-, h⟩ | ⟨conversation, node, -, h⟩
    · rw [h]
      exact ⟨rfl, rfl, rfl, rfl⟩
    · rw [h]
      exact ⟨rfl, rfl, rfl, rfl⟩

/-- Performs operations one after the other, and collects their departures. -/
def play (session : Session) : List Operation → Session × List Departure
  | [] => (session, [])
  | operation :: rest =>
    let (next, departure?) := operation.perform session
    let (last, departures) := play next rest
    (last, departure?.toList ++ departures)

end Operation

/-! ### Balanced books -/

/-- The books of a session record some departures and nothing else. -/
structure Balanced (session : Session) (departures : List Departure) : Prop where
  /-- The log is the nodes that were left. -/
  completed_eq : session.completed = departures.map (·.left)
  /-- The inventory is what was gained. -/
  inventory_eq : session.inventory = departures.flatMap (·.items)
  /-- The set of completed nodes has the nodes of the log. -/
  seen_iff : ∀ id, id ∈ session.seen ↔ id ∈ session.completed

theorem Balanced.fresh : Balanced Session.fresh [] where
  completed_eq := rfl
  inventory_eq := rfl
  seen_iff := fun _ => Iff.rfl

namespace Balanced

variable {session : Session} {departures : List Departure}

/-- A departure is one more entry. -/
theorem leaves (h : Balanced session departures) {graph : Graph} {conversation : ConversationId}
    {node : Node} {choice : Option Choice} {session' : Session} {departure : Departure}
    (hleaves : Session.Leaves graph session conversation node choice session' departure) :
    Balanced session' (departures ++ [departure]) where
  completed_eq := by
    rw [hleaves.completed_eq, h.completed_eq, List.map_append, ← hleaves.left_eq]
    rfl
  inventory_eq := by
    rw [hleaves.inventory_eq, h.inventory_eq, List.flatMap_append, List.flatMap_singleton]
  seen_iff := by
    intro id
    rw [hleaves.seen_eq, hleaves.completed_eq, List.mem_insert_iff, List.mem_append,
      List.mem_singleton, h.seen_iff, or_comm]

/-- **One operation** keeps the books balanced. -/
theorem perform (h : Balanced session departures) (operation : Operation) :
    Balanced (operation.perform session).1
      (departures ++ (operation.perform session).2.toList) := by
  rcases operation.perform_cases session with
    ⟨hnone, hcompleted, hseen, hinventory⟩ |
    ⟨graph, conversation, node, choice, session', departure, hperform, -, -, -, hleaves⟩
  · rw [hnone, Option.toList_none, List.append_nil]
    constructor
    · -- the departures are still the ones of before
      rw [hcompleted, h.completed_eq]
    · rw [hinventory, h.inventory_eq]
    · rw [hseen, hcompleted]
      exact h.seen_iff
  · rw [hperform]
    exact h.leaves hleaves

/-- **A run of operations** keeps the books balanced. -/
theorem play (h : Balanced session departures) (operations : List Operation) :
    Balanced (Operation.play session operations).1
      (departures ++ (Operation.play session operations).2) := by
  induction operations generalizing session departures with
  | nil =>
    change Balanced session (departures ++ [])
    rw [List.append_nil]
    exact h
  | cons operation rest ih =>
    -- the departures of the rest come after the one of this operation
    have hrest := ih (h.perform operation)
    rw [List.append_assoc] at hrest
    exact hrest

/-- What a departure grants. Only the log decides whether the node grants its item. -/
theorem items_eq (h : Balanced session departures) {graph : Graph} {conversation : ConversationId}
    {node : Node} {choice : Option Choice} {session' : Session} {departure : Departure}
    (hleaves : Session.Leaves graph session conversation node choice session' departure) :
    departure.items =
      (if node.id ∈ session.completed then [] else node.grantsItem.toList) ++
        (choice.bind (·.consequence)).toList := by
  rw [hleaves.items_eq, Session.grants, Session.hasCompleted]
  simp only [List.contains_iff_mem, h.seen_iff]

end Balanced

/-- **The ledger.** After any operations, on any graphs, the log is the nodes that were left and the
inventory is what was gained, both in order, and a node counts as completed exactly if it is in the
log. A further departure leaves the current node. It gains the item of the node unless the node is
in the log already, and then what the choice brings; from a node without choices nothing more. -/
theorem ledger_of_play (operations : List Operation) :
    let session := (Operation.play Session.fresh operations).1
    let departures := (Operation.play Session.fresh operations).2
    session.completed = departures.map (·.left) ∧
    session.inventory = departures.flatMap (·.items) ∧
    (∀ id, session.hasCompleted id = true ↔ id ∈ session.completed) ∧
    ∀ (operation : Operation) (departure : Departure),
      (operation.perform session).2 = some departure →
      ∃ (graph : Graph) (node : Node), operation.graph? = some graph ∧
        graph.get? departure.left = some node ∧ session.currentId? = some departure.left ∧
        (let granted := if node.id ∈ session.completed then [] else node.grantsItem.toList
         (∃ choice, operation.choice? session node = some choice ∧
            departure.items = granted ++ choice.consequence.toList) ∨
          operation = .confirm graph ∧ node.isLeaf = true ∧ departure.items = granted) := by
  intro session departures
  -- the books are balanced at the point where the further operation is performed
  have h : Balanced session departures := Balanced.fresh.play operations
  refine ⟨h.completed_eq, h.inventory_eq, ?_, ?_⟩
  · intro id
    rw [Session.hasCompleted, List.contains_iff_mem]
    exact h.seen_iff id
  · intro operation departure hdeparture
    rcases operation.perform_cases session with
      ⟨hnone, -⟩ | ⟨graph, conversation, node, choice, session', departure', hperform, hleft⟩
    · rw [hnone] at hdeparture
      cases hdeparture
    · obtain ⟨hgraph, hchoice, hleaf, hleaves⟩ := hleft
      rw [hperform] at hdeparture
      obtain rfl := Option.some.inj hdeparture
      have hitems := h.items_eq hleaves
      refine ⟨graph, node, hgraph, ?_, ?_, ?_⟩
      · rw [hleaves.left_eq]
        exact hleaves.get?_eq
      · rw [hleaves.left_eq, Session.currentId?, hleaves.cursor_eq]
      · cases choice with
        | some choice => exact Or.inl ⟨choice, hchoice, hitems⟩
        | none =>
          -- there was nothing to choose
          obtain ⟨hconfirm, hisLeaf⟩ := hleaf rfl
          rw [Option.bind_none, Option.toList_none, List.append_nil] at hitems
          exact Or.inr ⟨hconfirm, hisLeaf, hitems⟩

/-- A node that leads back to itself. Its item is gained once, the coin each time. -/
theorem ledger_of_play_loop :
    let gate : Node :=
      { id := "gate"
        speaker := "Guard"
        text := "Again?"
        choices := [{ text := "Yes", next := some "gate", consequence := some "coin" }]
        grantsItem := some "key" }
    let graph : Graph := ⟨[gate], by decide⟩
    let session := (Operation.play Session.fresh [.start graph "gate", .choose graph 0]).1
    session.inventory = ["key", "coin"] ∧
      ((Operation.choose graph 0).perform session).2 =
        some ⟨"gate", ["coin"], .continued "gate"⟩ ∧
      session.currentId? = some "gate" := by
  intro gate graph session
  have hperform : ((Operation.choose graph 0).perform session).2 =
      some ⟨"gate", ["coin"], .continued "gate"⟩ := by decide
  obtain ⟨-, hinventory, -, hnext⟩ :=
    ledger_of_play [.start graph "gate", .choose graph 0]
  obtain ⟨-, -, -, -, hcurrent, -⟩ := hnext (.choose graph 0) _ hperform
  exact ⟨hinventory.trans (by decide), hperform, hcurrent⟩

end Sidescroller.Story
