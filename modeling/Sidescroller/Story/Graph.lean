import Sidescroller.Story.Node

/-!
# Story graphs

A graph is a list of nodes with different ids. `Graph.get?` is the node of an id; the order of the
list matters to no look-up.

Choices may name ids that no node has. Such links are not refused here: a conversation that follows
one ends, and `Graph.danglingLinks` lists them.

* `Graph.insert` adds a node and fails on an id that is taken; `Graph.ofNodes` adds a list of them.
* `Graph.offer` is the same for a graph that is kept when it refuses a node.
* `Graph.reachable` lists the nodes that a conversation can get to, breadth first.

`SetupError` has what is wrong with a graph, and also what is wrong with the chapters of a story.
-/

namespace Sidescroller.Story

/-- What keeps a story from being set up: its graph, or the tables its chapters are made from. -/
inductive SetupError where
  /-- Two nodes have the same id. -/
  | duplicateNode (id : String)
  /-- There is no milestone. -/
  | noMilestones
  /-- The number of chapter labels does not fit the number of milestones. -/
  | labelCount (labels milestones : Nat)
  deriving DecidableEq

/-- The error as shown to a person. -/
def SetupError.message : SetupError → String
  | duplicateNode id => "Duplicate story node id: " ++ id
  | noMilestones => "Invalid story content: chapter milestones are empty"
  | labelCount labels milestones =>
    "Invalid story content: " ++ toString labels ++ " chapter labels for " ++ toString milestones
      ++ " milestones; expected " ++ toString (milestones - 1)

/-- Nodes with different ids. -/
structure Graph where
  /-- The nodes, in the order they were added. -/
  nodes : List Node
  /-- No id is used twice. -/
  nodup_ids : (nodes.map Node.id).Nodup

namespace Graph

/-- The graph without nodes. -/
def empty : Graph := ⟨[], by simp⟩

/-- The node with an id. -/
def get? (graph : Graph) (id : String) : Option Node := graph.nodes.find? (·.id == id)

/-- Whether a node has the id. -/
def contains (graph : Graph) (id : String) : Bool := graph.nodes.any (·.id == id)

/-- The number of nodes. -/
def size (graph : Graph) : Nat := graph.nodes.length

theorem nodup_ids_append {graph : Graph} {node : Node} (h : graph.contains node.id = false) :
    ((graph.nodes ++ [node]).map Node.id).Nodup := by
  rw [List.map_append, List.nodup_append]
  refine ⟨graph.nodup_ids, by simp, ?_⟩
  intro id hid other hother
  obtain ⟨present, hpresent, rfl⟩ := List.mem_map.1 hid
  obtain rfl : other = node.id := by simpa using hother
  simp only [contains, List.any_eq_false, beq_iff_eq] at h
  exact h present hpresent

/-- Adds a node. Fails if its id is taken. -/
def insert (graph : Graph) (node : Node) : Except SetupError Graph :=
  if h : graph.contains node.id then .error (.duplicateNode node.id)
  else .ok ⟨graph.nodes ++ [node], nodup_ids_append (by simpa using h)⟩

/-- **A graph that is offered a node** takes it in, or else stays what it is and tells why. -/
def offer (graph : Graph) (node : Node) : Graph × Except SetupError Unit :=
  match graph.insert node with
  | .ok grown => (grown, .ok ())
  | .error error => (graph, .error error)

/-- The graph of some nodes. Fails on the first node whose id is taken. -/
def ofNodes (nodes : List Node) : Except SetupError Graph := nodes.foldlM insert empty

/-! ### Reachable nodes -/

/-- Breadth-first search: takes ids from the queue, lists the node of each unless it has been listed
or does not exist, and queues what its choices lead to. `unlisted` are the nodes of the graph that
have not been listed yet. -/
def explore (unlisted : List Node) (queue : List String) : List Node :=
  match queue with
  | [] => []
  | id :: queue =>
    match h : unlisted.find? (·.id == id) with
    -- The id has been listed already, or no node has it.
    | none => explore unlisted queue
    | some node =>
      have : (unlisted.filter (·.id != id)).length < unlisted.length :=
        List.length_filter_lt_length_iff_exists.2
          ⟨node, List.mem_of_find?_eq_some h, by simpa using List.find?_some h⟩
      node :: explore (unlisted.filter (·.id != id)) (queue ++ node.targets)
termination_by (unlisted.length, queue.length)

/-- The nodes that choices lead to from `start`, which comes first, in breadth-first order. Links to
ids that no node has are skipped. -/
def reachable (graph : Graph) (start : String) : List Node := explore graph.nodes [start]

/-! ### Dangling links -/

/-- The order of links: by source, then by target. Ids are ordered by their code points, which for
texts is the order of their UTF-8 bytes. -/
def linkLE (a b : String × String) : Bool :=
  a.1 < b.1 || (a.1 == b.1 && !(b.2 < a.2 : Bool))

/-- The links of a node whose target no node has. -/
def danglingFrom (graph : Graph) (node : Node) : List (String × String) :=
  (node.targets.filter fun target => !graph.contains target).map fun target => (node.id, target)

/-- The links whose target no node has, with their source, in order. Two choices of a node that lead
to the same missing id give two links. -/
def danglingLinks (graph : Graph) : List (String × String) :=
  (graph.nodes.flatMap graph.danglingFrom).mergeSort linkLE

end Graph

end Sidescroller.Story
