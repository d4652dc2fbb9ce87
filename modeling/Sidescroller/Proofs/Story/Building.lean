import Sidescroller.Proofs.Story.Reach
import Sidescroller.Proofs.Story.Rewording

/-!
# What a graph is built of

A graph takes its nodes in one after the other, and stops at the first one whose id is taken. So the
nodes that have been taken in are those of a prefix of the list, in which no id is repeated, and a
graph comes about exactly if the prefix is the whole list.

* `Graph.insert_of_taken`, `Graph.insert_of_free` — one node;
* `Graph.get?_insert`, `Graph.get?_insert_of_ne` — what is found afterwards;
* `Graph.FirstRepeat` — the node at which a list repeats an id for the first time;
* `Graph.foldlM_insert_cases` — many nodes: all are taken in, or there is a first repetition;
* `Graph.offer_of_taken`, `Graph.offer_of_insert` — a graph that stays what it is when it refuses;
* `ofNodes_exact` — all of it.
-/

namespace Sidescroller.Story.Graph

variable {graph grown : Graph} {node : Node} {nodes before : List Node} {id : String}

/-! ### One node -/

theorem contains_eq_isSome_get? (graph : Graph) (id : String) :
    graph.contains id = (graph.get? id).isSome := by
  rw [Bool.eq_iff_iff, contains_iff, Option.isSome_iff_exists]

theorem contains_iff_mem_ids : graph.contains id = true ↔ id ∈ graph.nodes.map Node.id := by
  simp only [contains, List.any_eq_true, beq_iff_eq, List.mem_map]

/-- Ids are different, so a node is found by its id. -/
theorem get?_eq_some_iff : graph.get? id = some node ↔ node ∈ graph.nodes ∧ node.id = id := by
  constructor
  · intro h
    exact ⟨List.mem_of_find?_eq_some h, id_of_get? h⟩
  · rintro ⟨hmem, rfl⟩
    exact get?_of_mem hmem

/-- A node whose id is taken is refused. -/
theorem insert_of_taken (h : graph.contains node.id = true) :
    graph.insert node = .error (.duplicateNode node.id) := by
  unfold insert
  rw [dif_pos h]

/-- A node with a new id comes behind the others. -/
theorem insert_of_free (h : graph.contains node.id = false) :
    graph.insert node = .ok ⟨graph.nodes ++ [node], nodup_ids_append h⟩ := by
  unfold insert
  rw [dif_neg (by rw [h]; exact Bool.false_ne_true)]

theorem nodes_of_insert (h : graph.insert node = .ok grown) :
    graph.contains node.id = false ∧ grown.nodes = graph.nodes ++ [node] := by
  cases hfree : graph.contains node.id with
  | true =>
    rw [insert_of_taken hfree] at h
    cases h
  | false =>
    rw [insert_of_free hfree] at h
    obtain rfl := Except.ok.inj h
    exact ⟨rfl, rfl⟩

/-- The node is found under its id. -/
theorem get?_insert (h : graph.insert node = .ok grown) : grown.get? node.id = some node := by
  obtain ⟨-, hnodes⟩ := nodes_of_insert h
  rw [get?_eq_some_iff, hnodes]
  exact ⟨List.mem_concat_self, rfl⟩

/-- Under other ids the same is found as before. -/
theorem get?_insert_of_ne (h : graph.insert node = .ok grown) (hne : id ≠ node.id) :
    grown.get? id = graph.get? id := by
  obtain ⟨-, hnodes⟩ := nodes_of_insert h
  have hnode : (node.id == id) = false := beq_eq_false_iff_ne.2 (Ne.symm hne)
  rw [get?, hnodes, List.find?_append, List.find?_singleton, hnode, if_neg Bool.false_ne_true,
    Option.or_none, get?]

/-! ### Many nodes -/

/-- **The first repetition** of a list: its id occurs before, and no id is repeated before. -/
def FirstRepeat (nodes : List Node) (node : Node) : Prop :=
  ∃ before after, nodes = before ++ node :: after ∧ (before.map Node.id).Nodup ∧
    node.id ∈ before.map Node.id

/-- **The nodes are taken in**, or they are up to the first whose id is taken. -/
theorem foldlM_insert_cases (graph : Graph) (nodes : List Node) :
    (∃ grown, nodes.foldlM insert graph = .ok grown) ∨
      ∃ before node after, nodes = before ++ node :: after ∧
        ((graph.nodes ++ before).map Node.id).Nodup ∧
        node.id ∈ (graph.nodes ++ before).map Node.id ∧
        nodes.foldlM insert graph = .error (.duplicateNode node.id) := by
  induction nodes generalizing graph with
  | nil => exact Or.inl ⟨graph, rfl⟩
  | cons node nodes ih =>
    rw [List.foldlM_cons]
    cases hfree : graph.contains node.id with
    | true =>
      refine Or.inr ⟨[], node, nodes, rfl, ?_, ?_, ?_⟩
      · rw [List.append_nil]
        exact graph.nodup_ids
      · rw [List.append_nil]
        exact contains_iff_mem_ids.1 hfree
      · rw [insert_of_taken hfree]
        rfl
    | false =>
      rw [insert_of_free hfree]
      -- the graph has grown by the node, which stands before the rest
      rcases ih ⟨graph.nodes ++ [node], nodup_ids_append hfree⟩ with
        hgrown | ⟨before, other, after, rfl, hnodup, hmem, hfold⟩
      · exact Or.inl hgrown
      · rw [List.append_assoc, List.singleton_append] at hnodup hmem
        exact Or.inr ⟨node :: before, other, after, rfl, hnodup, hmem, hfold⟩

/-- Nodes with different ids make a graph. -/
theorem exists_ofNodes_iff : (∃ graph, ofNodes nodes = .ok graph) ↔ (nodes.map Node.id).Nodup := by
  constructor
  · rintro ⟨graph, h⟩
    rw [← nodes_of_ofNodes h]
    exact graph.nodup_ids
  · intro hnodup
    rcases foldlM_insert_cases empty nodes with hgrown | ⟨before, node, after, rfl, -, hmem, -⟩
    · exact hgrown
    · -- the id of the repetition stands before it
      rw [List.map_append, List.map_cons, List.nodup_append] at hnodup
      exact absurd rfl (hnodup.2.2 node.id hmem node.id List.mem_cons_self)

/-- **The error names the first repetition.** -/
theorem ofNodes_eq_error_iff {error : SetupError} :
    ofNodes nodes = .error error ↔
      ∃ node, FirstRepeat nodes node ∧ error = .duplicateNode node.id := by
  constructor
  · intro h
    rcases foldlM_insert_cases empty nodes with
      ⟨grown, hgrown⟩ | ⟨before, node, after, hnodes, hnodup, hmem, hfold⟩
    · cases h.symm.trans hgrown
    · exact ⟨node, ⟨before, after, hnodes, hnodup, hmem⟩, Except.error.inj (h.symm.trans hfold)⟩
  · rintro ⟨node, ⟨before, after, rfl, hnodup, hmem⟩, rfl⟩
    obtain ⟨graph, hgraph⟩ := exists_ofNodes_iff.2 hnodup
    have hbefore : before.foldlM insert empty = .ok graph := hgraph
    have htaken : graph.contains node.id = true := by
      rw [contains_iff_mem_ids, nodes_of_ofNodes hgraph]
      exact hmem
    rw [ofNodes, List.foldlM_append, hbefore]
    show (node :: after).foldlM insert graph = _
    rw [List.foldlM_cons, insert_of_taken htaken]
    rfl

/-! ### Offers -/

/-- A graph that refuses a node is kept. -/
theorem offer_of_taken (h : graph.contains node.id = true) :
    graph.offer node = (graph, .error (.duplicateNode node.id)) := by
  unfold offer
  rw [insert_of_taken h]

/-- A graph that takes a node in is the one with the node. -/
theorem offer_of_insert (h : graph.insert node = .ok grown) :
    graph.offer node = (grown, .ok ()) := by
  unfold offer
  rw [h]

/-- **Graphs are built exactly.** Nodes make a graph exactly if their ids are different. Then it has
as many nodes as there are, and under an id it has the node of that id as it was given, or nothing
if there is none. Otherwise the error names the first id that is repeated. To any graph a node can
be added. If its id is taken it is refused, the error names the id, and the graph stays what it is:
whatever is looked up, counted, searched or listed. If the id is new the node is found under it, and
under all other ids the same is found as before. -/
theorem ofNodes_exact (nodes : List Node) :
    ((∃ graph, ofNodes nodes = .ok graph) ↔ (nodes.map Node.id).Nodup) ∧
    (∀ graph, ofNodes nodes = .ok graph →
      graph.size = nodes.length ∧
      ∀ id, (∀ node, graph.get? id = some node ↔ node ∈ nodes ∧ node.id = id) ∧
        (graph.get? id = none ↔ id ∉ nodes.map Node.id) ∧
        graph.contains id = (graph.get? id).isSome) ∧
    (∀ error, ofNodes nodes = .error error ↔
      ∃ node, FirstRepeat nodes node ∧ error = .duplicateNode node.id) ∧
    ∀ (graph : Graph) (node : Node),
      let after := (graph.offer node).1
      let answer := (graph.offer node).2
      (graph.contains node.id = true →
        answer = .error (.duplicateNode node.id) ∧ after.size = graph.size ∧
        (∀ id, after.get? id = graph.get? id ∧ after.contains id = graph.contains id) ∧
        (∀ start, after.reachable start = graph.reachable start) ∧
        after.danglingLinks = graph.danglingLinks) ∧
      (graph.contains node.id = false →
        answer = .ok () ∧ after.size = graph.size + 1 ∧
        after.get? node.id = some node ∧ after.contains node.id = true ∧
        ∀ id, id ≠ node.id →
          after.get? id = graph.get? id ∧ after.contains id = graph.contains id) := by
  refine ⟨exists_ofNodes_iff, ?_, fun _ => ofNodes_eq_error_iff, ?_⟩
  · intro graph h
    have hnodes : graph.nodes = nodes := nodes_of_ofNodes h
    refine ⟨congrArg List.length hnodes, ?_⟩
    intro id
    refine ⟨?_, ?_, graph.contains_eq_isSome_get? id⟩
    · intro node
      rw [get?_eq_some_iff, hnodes]
    · rw [← hnodes, ← contains_iff_mem_ids, contains_eq_isSome_get?, Option.not_isSome_iff_eq_none]
  · intro graph node
    dsimp only
    constructor
    · intro htaken
      -- it is the same graph, so nothing that is asked of it can have another answer
      rw [offer_of_taken htaken]
      exact ⟨rfl, rfl, fun _ => ⟨rfl, rfl⟩, fun _ => rfl, rfl⟩
    · intro hfree
      have hinsert := insert_of_free hfree
      have hfound := get?_insert hinsert
      rw [offer_of_insert hinsert]
      refine ⟨rfl, List.length_append, hfound, contains_of_get? hfound, ?_⟩
      intro id hne
      have hother := get?_insert_of_ne hinsert hne
      refine ⟨hother, ?_⟩
      rw [contains_eq_isSome_get?, hother, ← contains_eq_isSome_get?]

/-- The third node repeats the id of the first one, and it does not take its place. -/
theorem ofNodes_exact_repeat :
    let gate : Node := { id := "gate", speaker := "Guard", text := "In?" }
    let hall : Node := { id := "hall", speaker := "Guard", text := "Up?" }
    let gate' : Node := { id := "gate", speaker := "Guard", text := "Out?" }
    ofNodes [gate, hall, gate'] = .error (.duplicateNode "gate") ∧
      ∃ graph, ofNodes [gate, hall] = .ok graph ∧ graph.size = 2 ∧
        graph.contains "gate" = true ∧ (graph.offer gate').1.get? "gate" = some gate ∧
        graph.contains "attic" = false ∧
        (graph.offer { hall with id := "attic" }).1.get? "hall" = some hall := by
  intro gate hall gate'
  obtain ⟨-, -, herror, -⟩ := ofNodes_exact [gate, hall, gate']
  have hrepeat : FirstRepeat [gate, hall, gate'] gate' :=
    ⟨[gate, hall], [], rfl, by decide, by decide⟩
  obtain ⟨hok, hfinds, -, hoffers⟩ := ofNodes_exact [gate, hall]
  obtain ⟨graph, hgraph⟩ := hok.2 (by decide)
  obtain ⟨hsize, hlookup⟩ := hfinds graph hgraph
  have hgate : graph.get? "gate" = some gate := ((hlookup "gate").1 gate).2 (by decide)
  have hhall : graph.get? "hall" = some hall := ((hlookup "hall").1 hall).2 (by decide)
  have htaken : graph.contains "gate" = true := by rw [(hlookup "gate").2.2, hgate]; rfl
  have hfree : graph.contains "attic" = false := by
    rw [(hlookup "attic").2.2, (hlookup "attic").2.1.2 (by decide)]
    rfl
  obtain ⟨-, -, hsame, -⟩ := (hoffers graph gate').1 htaken
  obtain ⟨-, -, -, -, hothers⟩ := (hoffers graph { hall with id := "attic" }).2 hfree
  exact ⟨(herror _).2 ⟨gate', hrepeat, rfl⟩, graph, hgraph, hsize, htaken,
    (hsame "gate").1.trans hgate, hfree, (hothers "hall" (by decide)).1.trans hhall⟩

end Sidescroller.Story.Graph
