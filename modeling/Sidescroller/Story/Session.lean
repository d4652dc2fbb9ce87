import Sidescroller.Story.Graph

/-!
# Sessions

A session is the place where a playthrough is in its story: idle, or in a conversation on one node.
It also keeps what a playthrough accumulates over all conversations, the inventory and the log of
completed nodes.

Every operation is given the graph it works on, and returns the session after it together with its
answer. An operation that fails returns the session it was given.

* `start` opens a conversation.
* `choose`, `chooseNumeric` and `confirm` leave the current node: the item of the node is granted if
  it was never completed before, the node is logged, the consequence of the choice is granted, and
  the conversation goes on to the next node or ends.
* `cancel` ends the conversation and completes nothing.
* `moveSelection` moves the highlight.
-/

namespace Sidescroller.Story

/-- The identity of a conversation. Identities are only compared with each other, handed on and
shown; nothing is computed from them. The running numbers stand for identities that are drawn at
random, of which no two are the same. -/
structure ConversationId where
  number : Nat
  deriving DecidableEq, Inhabited

/-- Where a session is in its story. -/
inductive Cursor where
  | idle
  /-- A conversation is open and on a node. -/
  | active (conversation : ConversationId) (node : String)
  deriving DecidableEq, Inhabited

/-- Why a conversation ended. -/
inductive EndReason where
  /-- The choice ends the conversation, or the node has no choices. -/
  | terminal
  /-- The choice leads to an id that no node has. -/
  | brokenReference (missing : String)
  | cancelled
  deriving DecidableEq, Inhabited

/-- A conversation that has ended. -/
structure Ending where
  /-- Which conversation it was. -/
  conversation : ConversationId
  lastNode : String
  /-- The nodes that were completed in it, in order. -/
  completed : List String
  reason : EndReason
  deriving DecidableEq, Inhabited

/-- Where a session goes from a node that it leaves. -/
inductive Transition where
  /-- The conversation goes on with another node. -/
  | continued (node : String)
  | ended (ending : Ending)
  deriving DecidableEq, Inhabited

/-- A node has been left. -/
structure Departure where
  left : String
  /-- The items that were gained, in order. -/
  items : List String
  transition : Transition
  deriving DecidableEq, Inhabited

/-- Why an operation of a session failed. -/
inductive SessionError where
  | notActive
  | alreadyActive (node : String)
  /-- The node has no choice of that number. -/
  | choiceOutOfRange (index count : Nat)
  /-- The graph has no node of that id. -/
  | unknownNode (node : String)
  deriving DecidableEq, Inhabited

namespace SessionError

/-- The error as shown to a person. -/
def message : SessionError → String
  | notActive => "No dialogue is active"
  | alreadyActive node => "A dialogue is already active on node " ++ node
  | choiceOutOfRange index count =>
    "Choice " ++ toString index ++ " is out of range (" ++ toString count ++ " choices available)"
  | unknownNode node => "Story node not found: " ++ node

end SessionError

/-- The place of a playthrough in its story, and what it has accumulated. -/
structure Session where
  /-- Where it is. -/
  cursor : Cursor := .idle
  /-- Position of the highlighted choice. -/
  selected : Nat := 0
  /-- The completed nodes, one entry for each time a node was left. -/
  completed : List String := []
  /-- The ids in `completed`, each of them once. -/
  seen : List String := []
  /-- The items gained, in order. -/
  inventory : List String := []
  /-- The nodes completed in the open conversation, in order. -/
  pending : List String := []
  /-- The number of the next identity to be drawn, which no conversation has had. -/
  nextConversation : Nat := 1
  deriving DecidableEq, Inhabited

namespace Session

/-- A session that has not begun. -/
def fresh : Session := {}

/-! ### What a session shows -/

/-- Whether a conversation is open. -/
def isActive (session : Session) : Bool :=
  match session.cursor with
  | .idle => false
  | .active _ _ => true

/-- The id of the current node. -/
def currentId? (session : Session) : Option String :=
  match session.cursor with
  | .idle => none
  | .active _ node => some node

def conversation? (session : Session) : Option ConversationId :=
  match session.cursor with
  | .idle => none
  | .active conversation _ => some conversation

/-- The current node, if the graph has it. -/
def currentNode? (session : Session) (graph : Graph) : Option Node :=
  session.currentId?.bind graph.get?

/-- The last `count` items gained, oldest first. -/
def recentItems (session : Session) (count : Nat) : List String :=
  session.inventory.drop (session.inventory.length - count)

/-- Whether a node has ever been completed. -/
def hasCompleted (session : Session) (id : String) : Bool := session.seen.contains id

/-- The current node, or the reason why there is none. -/
def activeNode (session : Session) (graph : Graph) : Except SessionError Node :=
  match session.currentId? with
  | none => .error .notActive
  | some id =>
    match graph.get? id with
    | none => .error (.unknownNode id)
    | some node => .ok node

/-! ### Steps of the operations -/

/-- Draws the identity of a new conversation. -/
def drawConversation (session : Session) : Session × ConversationId :=
  ({ session with nextConversation := session.nextConversation + 1 }, ⟨session.nextConversation⟩)

/-- Adds an item to the inventory, if there is one. Returns what was gained. -/
def gain (session : Session) : Option String → Session × List String
  | none => (session, [])
  | some item => ({ session with inventory := session.inventory ++ [item] }, [item])

/-- Completes a node: its item is granted unless the node was completed before, and the node is
logged. Returns what was gained. -/
def complete (session : Session) (node : Node) : Session × List String :=
  let (session, granted) :=
    if session.hasCompleted node.id then (session, []) else session.gain node.grantsItem
  ({ session with
      completed := session.completed ++ [node.id]
      seen := session.seen.insert node.id
      pending := session.pending ++ [node.id] },
    granted)

/-- Goes on to another node of the conversation, if one is open. -/
def enter (session : Session) (id : String) : Session :=
  let cursor :=
    match session.cursor with
    | .idle => .idle
    | .active conversation _ => .active conversation id
  { session with cursor, selected := 0 }

/-- Ends the conversation, and hands over the nodes completed in it. If none is open the ending
gets a new identity. -/
def close (session : Session) (lastNode : String) (reason : EndReason) : Session × Ending :=
  let (session, conversation) :=
    match session.conversation? with
    | some conversation => (session, conversation)
    | none => session.drawConversation
  ({ session with cursor := .idle, selected := 0, pending := [] },
    ⟨conversation, lastNode, session.pending, reason⟩)

/-- Leaves a node by a choice that leads to `next`. -/
def follow (session : Session) (graph : Graph) (node : Node) :
    Option String → Session × Transition
  | none =>
    let (session, ending) := session.close node.id .terminal
    (session, .ended ending)
  | some next =>
    if graph.contains next then (session.enter next, .continued next)
    else
      let (session, ending) := session.close node.id (.brokenReference next)
      (session, .ended ending)

/-! ### Operations -/

/-- Opens a conversation on a node. Fails if one is open, or if the graph has no such node. -/
def start (session : Session) (graph : Graph) (id : String) :
    Session × Except SessionError ConversationId :=
  match session.currentId? with
  | some current => (session, .error (.alreadyActive current))
  | none =>
    if graph.contains id then
      let (session, conversation) := session.drawConversation
      ({ session with cursor := .active conversation id, selected := 0, pending := [] },
        .ok conversation)
    else (session, .error (.unknownNode id))

/-- Moves the highlight by `delta` places, as far as the choices of the current node go. Nothing
happens where there is nothing to highlight. -/
def moveSelection (session : Session) (graph : Graph) (delta : Int) : Session :=
  match session.currentNode? graph with
  | none => session
  | some node =>
    if node.isLeaf then session
    else
      let last : Int := node.choiceCount - 1
      { session with selected := (max 0 (min (session.selected + delta) last)).toNat }

/-- Takes the choice at a position of the current node. -/
def choose (session : Session) (graph : Graph) (index : Nat) :
    Session × Except SessionError Departure :=
  match session.activeNode graph with
  | .error error => (session, .error error)
  | .ok node =>
    match node.choices[index]? with
    | none => (session, .error (.choiceOutOfRange index node.choiceCount))
    | some choice =>
      -- The node grants before the choice does.
      let (session, granted) := session.complete node
      let (session, gained) := session.gain choice.consequence
      let (session, transition) := session.follow graph node choice.next
      (session, .ok ⟨node.id, granted ++ gained, transition⟩)

/-- Takes a choice by its number key. A key that numbers no choice is ignored. -/
def chooseNumeric (session : Session) (graph : Graph) (key : UInt8) :
    Session × Option Departure :=
  match session.currentNode? graph with
  | none => (session, none)
  | some node =>
    if 0 < key.toNat ∧ key.toNat ≤ node.choiceCount then
      let (session, answer) := session.choose graph (key.toNat - 1)
      (session, answer.toOption)
    else (session, none)

/-- Takes the highlighted choice. A node without choices is completed, and the conversation ends. -/
def confirm (session : Session) (graph : Graph) : Session × Except SessionError Departure :=
  match session.activeNode graph with
  | .error error => (session, .error error)
  | .ok node =>
    if node.isLeaf then
      let (session, granted) := session.complete node
      let (session, ending) := session.close node.id .terminal
      (session, .ok ⟨node.id, granted, .ended ending⟩)
    else session.choose graph session.selected

/-- Ends the open conversation without completing its node. -/
def cancel (session : Session) : Session × Option Ending :=
  match session.currentId? with
  | none => (session, none)
  | some node =>
    let (session, ending) := session.close node .cancelled
    (session, some ending)

end Session

end Sidescroller.Story
