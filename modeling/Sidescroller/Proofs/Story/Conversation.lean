import Sidescroller.Proofs.Story.Ledger

/-!
# Operations and conversations

What an operation does to the conversation of a session, and what its answer tells about it. An
operation opens a conversation, goes on with it, ends it or lets it be, and `Session.Moves` lists
these cases once, with the notice that whoever called the operation gets. It is the place to look
for what the cursor, the highlight and the nodes of the open conversation can do.

* `Operation.On` — the operation is given that graph, or none;
* `Operation.moves` — every operation on a graph makes one of the moves;
* `Session.Moves.closes` — a move that ends a conversation, whatever ends it;
* `Operation.identity_of_ending` — only the opening of a conversation draws an identity.
-/

namespace Sidescroller.Story

namespace Operation

/-- The operation works on that graph. Leaving a conversation needs no graph, and works on any. -/
def On (graph : Graph) (operation : Operation) : Prop :=
  ∀ other, operation.graph? = some other → other = graph

/-- For one operation there always is a graph that it works on. -/
theorem exists_on (operation : Operation) : ∃ graph, operation.On graph := by
  cases hgraph : operation.graph? with
  | none =>
    refine ⟨Graph.empty, ?_⟩
    intro other hother
    cases hgraph.symm.trans hother
  | some graph =>
    refine ⟨graph, ?_⟩
    intro other hother
    exact Option.some.inj (hother.symm.trans hgraph)

end Operation

/-! ### Notices -/

/-- What the answer of an operation tells about conversations. -/
inductive Notice where
  | opened (conversation : ConversationId) (node : String)
  | ended (ending : Ending)
  deriving DecidableEq

def Departure.notice? (departure : Departure) : Option Notice :=
  match departure.transition with
  | .continued _ => none
  | .ended ending => some (.ended ending)

namespace Operation

/-- What the answer of the operation tells about conversations. -/
def notice? (session : Session) : Operation → Option Notice
  | start graph id =>
    match (session.start graph id).2 with
    | .ok conversation => some (.opened conversation id)
    | .error _ => none
  | cancel => session.cancel.2.map .ended
  | operation => (operation.perform session).2.bind (·.notice?)

/-- What the answers of operations that are performed one after the other tell about
conversations. -/
def notices (session : Session) : List Operation → List Notice
  | [] => []
  | operation :: rest =>
    (operation.notice? session).toList ++ notices (operation.perform session).1 rest

end Operation

/-! ### Moves -/

/-- **What an operation can do to a conversation**, and the notice that it gives. -/
inductive Session.Moves (graph : Graph) (session : Session) : Session → Option Notice → Prop
  | stays : Moves graph session session none
  | opens {id : String} (hidle : session.cursor = .idle) (hnode : graph.contains id = true) :
    Moves graph session
      { session with
        cursor := .active ⟨session.nextConversation⟩ id
        selected := 0
        pending := []
        nextConversation := session.nextConversation + 1 }
      (some (.opened ⟨session.nextConversation⟩ id))
  /-- The highlight moves to a choice of the current node. -/
  | highlights {conversation : ConversationId} {node : Node} {selected : Nat}
      (hactive : session.cursor = .active conversation node.id)
      (hget : graph.get? node.id = some node) (hlt : selected < node.choiceCount) :
    Moves graph session { session with selected } none
  /-- The conversation goes on with another node. -/
  | continues {conversation : ConversationId} {node : Node} {choice : Option Choice}
      {session' : Session} {departure : Departure} {next : String}
      (hleaves : Session.Leaves graph session conversation node choice session' departure)
      (hchoice : ∀ taken, choice = some taken → taken ∈ node.choices)
      (hnext : departure.transition = .continued next) :
    Moves graph session session' none
  /-- The conversation ends with the node that is left. -/
  | ends {conversation : ConversationId} {node : Node} {choice : Option Choice}
      {session' : Session} {departure : Departure} {ending : Ending}
      (hleaves : Session.Leaves graph session conversation node choice session' departure)
      (hchoice : ∀ taken, choice = some taken → taken ∈ node.choices)
      (hending : departure.transition = .ended ending) :
    Moves graph session session' (some (.ended ending))
  /-- The conversation is left without completing its node. -/
  | cancels {conversation : ConversationId} {node : String}
      (hactive : session.cursor = .active conversation node) :
    Moves graph session { session with cursor := .idle, selected := 0, pending := [] }
      (some (.ended ⟨conversation, node, session.pending, .cancelled⟩))

namespace Session

variable {session session' : Session} {graph : Graph}

/-- The highlight moves only on a node that has choices, and stays among them. -/
theorem moveSelection_moves (session : Session) (graph : Graph) (delta : Int) :
    Moves graph session (session.moveSelection graph delta) none := by
  unfold moveSelection
  rcases session.currentNode?_cases graph with h | ⟨node, h, hactive⟩
  · rw [h]
    exact .stays
  · rw [h]
    dsimp only
    split_ifs with hleaf
    · exact .stays
    · rcases session.activeNode_cases graph with
        ⟨error, herror⟩ | ⟨conversation, node', hok, hcursor, hget⟩
      · rw [hactive] at herror
        cases herror
      · rw [hactive] at hok
        obtain rfl := Except.ok.inj hok
        -- there is a last choice, and the highlight is not moved past it
        have hpos : 0 < node.choiceCount :=
          List.length_pos_iff.2 fun hnil => hleaf (List.isEmpty_iff.2 hnil)
        exact .highlights hcursor hget (by omega)

/-- **An answer makes one of the moves**, also one that is refused. -/
theorem answer_moves {operation : Operation} (hon : operation.On graph)
    (hanswers : operation.Answers) :
    Moves graph session (operation.perform session).1
      ((operation.perform session).2.bind (·.notice?)) := by
  rcases hanswers.perform_cases session with
    h | ⟨given, conversation, node, choice, session', departure, h, hgiven, hchoice, -, hleaves⟩
  · rw [h]
    exact .stays
  · obtain rfl := hon given hgiven
    have hmem : ∀ taken, choice = some taken → taken ∈ node.choices :=
      fun taken htaken => Operation.mem_of_choice? (hchoice.trans htaken)
    rw [h]
    show Moves given session session' departure.notice?
    unfold Departure.notice?
    -- the conversation goes on, or it ends with the node that is left
    cases htransition : departure.transition with
    | continued next => exact .continues hleaves hmem htransition
    | ended ending => exact .ends hleaves hmem htransition

end Session

/-- **Every operation on a graph makes one of the moves.** -/
theorem Operation.moves (session : Session) {graph : Graph} {operation : Operation}
    (hon : operation.On graph) :
    Session.Moves graph session (operation.perform session).1 (operation.notice? session) := by
  cases operation with
  | start given id =>
    obtain rfl := hon given rfl
    rw [perform, notice?]
    rcases session.start_cases given id with ⟨error, h⟩ | ⟨hidle, hnode, h⟩
    · rw [h]
      exact .stays
    · rw [h]
      exact .opens hidle hnode
  | moveSelection given delta =>
    obtain rfl := hon given rfl
    exact session.moveSelection_moves given delta
  | choose given index => exact Session.answer_moves hon (.choose given index)
  | chooseNumeric given key => exact Session.answer_moves hon (.chooseNumeric given key)
  | confirm given => exact Session.answer_moves hon (.confirm given)
  | cancel =>
    -- leaving needs no graph, and is refused only without a conversation
    rw [perform, notice?]
    rcases session.cancel_cases with ⟨-, h⟩ | ⟨conversation, node, hactive, h⟩
    · rw [h]
      exact .stays
    · rw [h]
      exact .cancels hactive

/-! ### Ends of conversations -/

/-- What the end of a conversation adds to the log: its last node, unless it was cancelled there. -/
def Ending.logged (ending : Ending) : List String :=
  match ending.reason with
  | .cancelled => []
  | _ => [ending.lastNode]

theorem Ending.logged_mk {conversation : ConversationId} {lastNode : String}
    {completed : List String} {reason : EndReason} (h : reason ≠ .cancelled) :
    Ending.logged ⟨conversation, lastNode, completed, reason⟩ = [lastNode] := by
  cases reason with
  | cancelled => exact absurd rfl h
  | terminal => rfl
  | brokenReference missing => rfl

/-- **The end of a conversation.** It ends where it is, and hands over the nodes that were pending,
together with what its end adds to the log. -/
structure Session.Closes (session session' : Session) (ending : Ending) : Prop where
  cursor_eq : session.cursor = .active ending.conversation ending.lastNode
  idle : session'.cursor = .idle
  pending_eq : session'.pending = []
  completed_eq : session'.completed = session.completed ++ ending.logged
  handed_eq : ending.completed = session.pending ++ ending.logged

/-- Leaving the last node and cancelling on it differ only in what they add to the log. -/
theorem Session.Moves.closes {graph : Graph} {session session' : Session} {ending : Ending}
    (h : Moves graph session session' (some (.ended ending))) :
    Closes session session' ending := by
  generalize hnotice : some (Notice.ended ending) = notice at h
  cases h with
  | ends hleaves hchoice hending =>
    obtain rfl := Notice.ended.inj (Option.some.inj hnotice)
    obtain ⟨reason, rfl, hreason, hcursor, hpending⟩ := hleaves.of_ended hending
    refine ⟨hleaves.cursor_eq, hcursor, hpending, ?_, ?_⟩
    · rw [Ending.logged_mk hreason]
      exact hleaves.completed_eq
    · rw [Ending.logged_mk hreason]
  | cancels hactive =>
    obtain rfl := Notice.ended.inj (Option.some.inj hnotice)
    exact ⟨hactive, rfl, rfl, (List.append_nil _).symm, (List.append_nil _).symm⟩
  | _ => cases hnotice

/-! ### Identities -/

namespace Operation

theorem nextConversation_perform (session : Session) {operation : Operation}
    (hopens : ∀ graph id, operation ≠ .start graph id) :
    (operation.perform session).1.nextConversation = session.nextConversation := by
  have hanswers (h : operation.Answers) :
      (operation.perform session).1.nextConversation = session.nextConversation := by
    rcases h.perform_cases session with h | ⟨_, _, _, _, _, _, h, -, -, -, hleaves⟩
    · rw [h]
    · rw [h]
      exact hleaves.nextConversation_eq
  cases operation with
  | start graph id => exact absurd rfl (hopens graph id)
  | moveSelection graph delta =>
    obtain ⟨selected, h⟩ := session.moveSelection_eq graph delta
    rw [perform, h]
  | choose graph index => exact hanswers (.choose graph index)
  | chooseNumeric graph key => exact hanswers (.chooseNumeric graph key)
  | confirm graph => exact hanswers (.confirm graph)
  | cancel =>
    rw [perform]
    rcases session.cancel_cases with ⟨-, h⟩ | ⟨conversation, node, -, h⟩
    · rw [h]
    · rw [h]

/-- **The identity of an ending is never made up.** An operation that does not open a conversation
draws no identity, and if it ends one, the ending has the identity of the conversation that was
open. So what `Session.close` has for an idle session is never used. -/
theorem identity_of_ending (session : Session) (operation : Operation) :
    ((∀ graph id, operation ≠ .start graph id) →
      (operation.perform session).1.nextConversation = session.nextConversation) ∧
    ∀ ending, operation.notice? session = some (.ended ending) →
      session.conversation? = some ending.conversation := by
  refine ⟨nextConversation_perform session, ?_⟩
  intro ending hending
  obtain ⟨graph, hon⟩ := operation.exists_on
  have hmove := operation.moves session hon
  rw [hending] at hmove
  rw [Session.conversation?, hmove.closes.cursor_eq]

end Operation

end Sidescroller.Story
