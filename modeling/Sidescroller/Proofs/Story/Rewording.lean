import Sidescroller.Proofs.Story.Chapters
import Sidescroller.Proofs.Story.Session
import Sidescroller.Proofs.Text.Placeholder

/-!
# Other words

A story may be told in other words: the nodes keep their ids, their choices and what they grant, and
only their texts are edited. A session does not read texts. So whatever is asked of it, it goes on
in the same way, and answers the same.

Each student is told a script in other words, with the name put in. The script itself is among these
versions, it is the one for a student who is called like the placeholder.

* `Graph.reword` — the graph with edited texts;
* `Session.choose_reword` and its siblings — what a session does on it;
* `Graph.ofNodes_map_reword` — whether there is a graph does not depend on the texts either;
* `Script.setUp_eq` — so every student has the story of the placeholder, in other words.
-/

namespace Sidescroller.Story

variable {edit : String → String}

/-- The node with an edited text. -/
def Node.reword (edit : String → String) (node : Node) : Node :=
  { node with text := edit node.text }

/-! ### Graphs -/

namespace Graph

variable {graph : Graph}

theorem map_id_reword (nodes : List Node) :
    (nodes.map (Node.reword edit)).map Node.id = nodes.map Node.id := by
  rw [List.map_map]
  rfl

/-- The graph with edited texts. -/
def reword (edit : String → String) (graph : Graph) : Graph where
  nodes := graph.nodes.map (Node.reword edit)
  nodup_ids := (map_id_reword graph.nodes).symm ▸ graph.nodup_ids

theorem get?_reword (id : String) :
    (graph.reword edit).get? id = (graph.get? id).map (Node.reword edit) :=
  List.find?_map

theorem contains_reword (id : String) : (graph.reword edit).contains id = graph.contains id :=
  List.any_map

theorem insert_reword (node : Node) :
    (graph.reword edit).insert (node.reword edit) = (graph.insert node).map (reword edit) := by
  have hcontains : (graph.reword edit).contains (node.reword edit).id = graph.contains node.id :=
    contains_reword node.id
  unfold insert
  by_cases htaken : graph.contains node.id = true
  · rw [dif_pos htaken, dif_pos (hcontains.trans htaken)]
    rfl
  · rw [dif_neg htaken, dif_neg (fun h => htaken (hcontains.symm.trans h))]
    have hnodes : graph.nodes.map (Node.reword edit) ++ [node.reword edit] =
        (graph.nodes ++ [node]).map (Node.reword edit) := by
      rw [List.map_append]
      rfl
    simp only [Except.map, reword, hnodes]

theorem foldlM_insert_reword (nodes : List Node) (graph : Graph) :
    (nodes.map (Node.reword edit)).foldlM insert (graph.reword edit) =
      (nodes.foldlM insert graph).map (reword edit) := by
  induction nodes generalizing graph with
  | nil => rfl
  | cons node nodes ih =>
    rw [List.map_cons, List.foldlM_cons, List.foldlM_cons, insert_reword]
    cases graph.insert node with
    | error error => rfl
    | ok next => exact ih next

/-- **Nodes in other words** give the graph in other words, or fail in the same way. -/
theorem ofNodes_map_reword (nodes : List Node) :
    ofNodes (nodes.map (Node.reword edit)) = (ofNodes nodes).map (reword edit) :=
  foldlM_insert_reword nodes empty

theorem nodes_of_foldlM_insert {nodes : List Node} {graph last : Graph}
    (h : nodes.foldlM insert graph = .ok last) : last.nodes = graph.nodes ++ nodes := by
  induction nodes generalizing graph with
  | nil =>
    cases h
    rw [List.append_nil]
  | cons node nodes ih =>
    rw [List.foldlM_cons] at h
    unfold insert at h
    by_cases htaken : graph.contains node.id = true
    · rw [dif_pos htaken] at h
      cases h
    · rw [dif_neg htaken] at h
      rw [ih h, List.append_assoc]
      rfl

theorem nodes_of_ofNodes {nodes : List Node} (h : ofNodes nodes = .ok graph) :
    graph.nodes = nodes :=
  nodes_of_foldlM_insert h

end Graph

/-! ### Sessions -/

namespace Session

variable {graph : Graph} (session : Session)

theorem currentNode?_reword :
    session.currentNode? (graph.reword edit) =
      (session.currentNode? graph).map (Node.reword edit) := by
  unfold currentNode?
  cases session.currentId? with
  | none => rfl
  | some id => exact Graph.get?_reword id

theorem activeNode_reword :
    session.activeNode (graph.reword edit) =
      (session.activeNode graph).map (Node.reword edit) := by
  unfold activeNode
  cases session.currentId? with
  | none => rfl
  | some id =>
    simp only [Graph.get?_reword]
    cases graph.get? id with
    | none => rfl
    | some node => rfl

theorem follow_reword (node : Node) (next : Option String) :
    session.follow (graph.reword edit) (node.reword edit) next =
      session.follow graph node next := by
  unfold follow
  cases next with
  | none => rfl
  | some next =>
    simp only [Graph.contains_reword]
    rfl

theorem start_reword (id : String) :
    session.start (graph.reword edit) id = session.start graph id := by
  unfold start
  rw [Graph.contains_reword]

theorem moveSelection_reword (delta : Int) :
    session.moveSelection (graph.reword edit) delta = session.moveSelection graph delta := by
  unfold moveSelection
  rw [currentNode?_reword]
  cases session.currentNode? graph with
  | none => rfl
  | some node => rfl

theorem choose_reword (index : Nat) :
    session.choose (graph.reword edit) index = session.choose graph index := by
  unfold choose
  rw [activeNode_reword]
  cases session.activeNode graph with
  | error error => rfl
  | ok node =>
    -- the same choices are there, and they lead the same way
    have hchoices : (node.reword edit).choices = node.choices := rfl
    simp only [Except.map, hchoices, follow_reword]
    cases node.choices[index]? with
    | none => rfl
    | some choice => rfl

theorem chooseNumeric_reword (key : UInt8) :
    session.chooseNumeric (graph.reword edit) key = session.chooseNumeric graph key := by
  unfold chooseNumeric
  rw [currentNode?_reword, choose_reword]
  cases session.currentNode? graph with
  | none => rfl
  | some node => rfl

theorem confirm_reword : session.confirm (graph.reword edit) = session.confirm graph := by
  unfold confirm
  rw [activeNode_reword, choose_reword]
  cases session.activeNode graph with
  | error error => rfl
  | ok node => rfl

end Session

/-! ### Scripts -/

namespace Script

theorem nodesFor_eq (script : Script) (student : String) :
    script.nodesFor student = script.nodes.map (Node.reword (Text.address student)) := rfl

theorem nodesFor_placeholder (script : Script) :
    script.nodesFor (String.ofList Text.placeholder) = script.nodes := by
  rw [nodesFor_eq]
  have hnode : Node.reword (Text.address (String.ofList Text.placeholder)) = id := by
    funext node
    rw [Node.reword, Text.address_placeholder]
    rfl
  rw [hnode, List.map_id]

/-- **Every student has the story as it was written**, in other words, or none has it. -/
theorem setUp_eq (script : Script) (student : String) :
    script.setUp student =
      (script.setUp (String.ofList Text.placeholder)).map
        (Prod.map (Graph.reword (Text.address student)) id) := by
  unfold setUp
  rw [nodesFor_placeholder, nodesFor_eq, Graph.ofNodes_map_reword]
  cases Graph.ofNodes script.nodes with
  | error error => rfl
  | ok graph =>
    cases script.chapters with
    | error error => rfl
    | ok chapters => rfl

end Script

end Sidescroller.Story
