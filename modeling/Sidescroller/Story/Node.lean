/-!
# Story nodes

The unit of a conversation: somebody says something, and there are choices for an answer. A choice
names the node that comes next, or ends the conversation.
-/

namespace Sidescroller.Story

/-- An answer that can be given. -/
structure Choice where
  text : String
  /-- Id of the node it leads to; without one it ends the conversation. -/
  next : Option String := none
  /-- Item that is gained by giving this answer. -/
  consequence : Option String := none
  deriving DecidableEq, Inhabited

/-- A unit of a conversation. -/
structure Node where
  /-- Id by which choices name the node. -/
  id : String
  speaker : String
  text : String
  /-- The answers, in the order in which they are numbered. -/
  choices : List Choice := []
  /-- Item that is gained the first time the node is completed. -/
  grantsItem : Option String := none
  /-- How the speaker looks; shown only. -/
  emotion : Option String := none
  deriving DecidableEq, Inhabited

namespace Node

/-- The number of answers. -/
def choiceCount (node : Node) : Nat := node.choices.length

/-- A node without answers can only be dismissed. -/
def isLeaf (node : Node) : Bool := node.choices.isEmpty

/-- The ids that the answers lead to, in order. -/
def targets (node : Node) : List String := node.choices.filterMap (·.next)

end Node

end Sidescroller.Story
