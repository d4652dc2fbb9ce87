import Mathlib.Data.List.Chain
import Mathlib.Data.List.Nodup
import Sidescroller.Proofs.Story.Session

/-!
# What the search for reachable nodes finds

`Graph.reachable` is a search with a queue. Here is what it stands for: a node is listed exactly if
choices lead to it from the start, one after the other.

* `Graph.Link` — a choice leads from one id to another, which may be missing;
* `Graph.Reaches` — choices lead from an id to a node of the graph;
* `Graph.Walk` — ids one after the other, from the start on, each linked to the next;
* `Graph.mem_reachable_iff` — the search lists the nodes that are reached.

The search forgets a node when it lists it. So the statements about its loop are about the nodes
that are not yet listed, and find them by their ids, as the loop does.
-/

namespace Sidescroller.Story.Graph

variable {graph : Graph} {unlisted : List Node} {queue : List String} {node parent : Node}
  {id start source target : String}

/-! ### Looking nodes up -/

theorem contains_iff : graph.contains id = true ↔ ∃ node, graph.get? id = some node := by
  rw [contains, get?, ← Option.isSome_iff_exists, List.find?_isSome, List.any_eq_true]

theorem contains_of_get? (h : graph.get? id = some node) : graph.contains id = true :=
  contains_iff.2 ⟨node, h⟩

/-- Ids are used once, so a node of the list is found by its id. -/
theorem get?_of_mem (h : node ∈ graph.nodes) : graph.get? node.id = some node := by
  have hcontains : graph.contains node.id = true :=
    List.any_eq_true.2 ⟨node, h, beq_self_eq_true node.id⟩
  -- some node is found, and no other one has the id
  obtain ⟨found, hfound⟩ := contains_iff.1 hcontains
  have hmem : found ∈ graph.nodes := List.mem_of_find?_eq_some hfound
  obtain rfl := List.inj_on_of_nodup_map graph.nodup_ids hmem h (id_of_get? hfound)
  exact hfound

/-- Without the node of one id the others are still found. -/
theorem find?_filter_ne (nodes : List Node) (h : id ≠ target) :
    (nodes.filter (·.id != id)).find? (·.id == target) = nodes.find? (·.id == target) := by
  rw [List.find?_filter]
  congr 1
  funext node
  by_cases hnode : node.id = target
  · simp [hnode, Ne.symm h]
  · simp [hnode]

theorem find?_of_find?_filter {nodes : List Node}
    (h : (nodes.filter (·.id != id)).find? (·.id == target) = some node) :
    nodes.find? (·.id == target) = some node := by
  have hid : node.id = target := by simpa using List.find?_some h
  have hne : id ≠ target := by
    rintro rfl
    have hmem := List.mem_filter.1 (List.mem_of_find?_eq_some h)
    exact bne_iff_ne.1 hmem.2 hid
  rwa [find?_filter_ne nodes hne] at h

/-! ### The loop of the search -/

/-- **Induction along the search**: the queue is empty, or its first id has no node that is still
unlisted and is dropped, or the node of that id is listed. -/
@[elab_as_elim]
theorem explore_induction {motive : List Node → List String → Prop}
    (done : ∀ unlisted, motive unlisted [])
    (skip : ∀ unlisted id queue, unlisted.find? (·.id == id) = none → motive unlisted queue →
      motive unlisted (id :: queue))
    (list : ∀ unlisted id queue node, unlisted.find? (·.id == id) = some node →
      motive (unlisted.filter (·.id != id)) (queue ++ node.targets) → motive unlisted (id :: queue))
    (unlisted : List Node) (queue : List String) : motive unlisted queue := by
  induction unlisted, queue using explore.induct with
  | case1 unlisted => exact done unlisted
  | case2 unlisted id queue hnone ih => exact skip unlisted id queue hnone ih
  | case3 unlisted id queue node hsome hlt ih =>
    simp only [List.unattach_filter, List.unattach_attach] at ih
    exact list unlisted id queue node hsome ih

theorem explore_skip (h : unlisted.find? (·.id == id) = none) :
    explore unlisted (id :: queue) = explore unlisted queue := by
  rw [explore]
  split
  · rfl
  · simp_all

theorem explore_list (h : unlisted.find? (·.id == id) = some node) :
    explore unlisted (id :: queue) =
      node :: explore (unlisted.filter (·.id != id)) (queue ++ node.targets) := by
  rw [explore]
  split
  · simp_all
  · simp_all

/-- Whatever has been queued is listed, if it can be found. -/
theorem mem_explore_of_mem_queue (hqueue : target ∈ queue)
    (hfind : unlisted.find? (·.id == target) = some node) : node ∈ explore unlisted queue := by
  induction unlisted, queue using explore_induction with
  | done unlisted => cases hqueue
  | skip unlisted id queue hnone ih =>
    rw [explore_skip hnone]
    rcases List.mem_cons.1 hqueue with rfl | hqueue
    · rw [hnone] at hfind
      cases hfind
    · exact ih hqueue hfind
  | list unlisted id queue first hfirst ih =>
    rw [explore_list hfirst]
    by_cases hid : id = target
    · subst hid
      rw [hfirst] at hfind
      obtain rfl := Option.some.inj hfind
      exact List.mem_cons_self
    · -- it is still in the queue, behind which the targets of the first node have been put
      have hrest : target ∈ queue ++ first.targets :=
        List.mem_append_left _ ((List.mem_cons.1 hqueue).resolve_left (Ne.symm hid))
      exact List.mem_cons_of_mem _ (ih hrest ((find?_filter_ne unlisted hid).trans hfind))

/-- **The list is closed**: with a node it has whatever its choices lead to. -/
theorem mem_explore_of_target (hparent : parent ∈ explore unlisted queue)
    (htarget : target ∈ parent.targets) (hfind : unlisted.find? (·.id == target) = some node) :
    node ∈ explore unlisted queue := by
  induction unlisted, queue using explore_induction with
  | done unlisted =>
    rw [explore] at hparent
    cases hparent
  | skip unlisted id queue hnone ih =>
    rw [explore_skip hnone] at hparent ⊢
    exact ih hparent hfind
  | list unlisted id queue first hfirst ih =>
    rw [explore_list hfirst] at hparent ⊢
    by_cases hid : id = target
    · subst hid
      rw [hfirst] at hfind
      obtain rfl := Option.some.inj hfind
      exact List.mem_cons_self
    · have hrest := (find?_filter_ne unlisted hid).trans hfind
      refine List.mem_cons_of_mem _ ?_
      rcases List.mem_cons.1 hparent with rfl | hparent
      · -- the targets of the first node are queued when it is listed
        exact mem_explore_of_mem_queue (List.mem_append_right _ htarget) hrest
      · exact ih hparent hrest

/-- **The list has nothing else**: what holds of the queue, and goes on from a node to whatever its
choices lead to, holds of all nodes that are listed. -/
theorem forall_mem_explore {p : Node → Prop}
    (hqueue : ∀ id ∈ queue, ∀ node, unlisted.find? (·.id == id) = some node → p node)
    (htargets : ∀ parent, p parent → ∀ target ∈ parent.targets, ∀ node,
      unlisted.find? (·.id == target) = some node → p node) :
    ∀ node ∈ explore unlisted queue, p node := by
  induction unlisted, queue using explore_induction with
  | done unlisted =>
    intro node hnode
    rw [explore] at hnode
    cases hnode
  | skip unlisted id queue hnone ih =>
    rw [explore_skip hnone]
    exact ih (fun other hother => hqueue other (List.mem_cons_of_mem _ hother)) htargets
  | list unlisted id queue first hfirst ih =>
    have hp : p first := hqueue id List.mem_cons_self first hfirst
    rw [explore_list hfirst, List.forall_mem_cons]
    refine ⟨hp, ih ?_ ?_⟩
    · intro other hother node hnode
      have hnode := find?_of_find?_filter hnode
      rcases List.mem_append.1 hother with hother | hother
      · exact hqueue other (List.mem_cons_of_mem _ hother) node hnode
      · exact htargets first hp other hother node hnode
    · intro parent hparent target htarget node hnode
      exact htargets parent hparent target htarget node (find?_of_find?_filter hnode)

/-! ### Links and walks -/

/-- A choice of the node `source` leads to `target`, which may be missing. -/
def Link (graph : Graph) (source target : String) : Prop :=
  ∃ node, graph.get? source = some node ∧ target ∈ node.targets

/-- Choices lead from `start` to a node of the graph, by nodes of the graph. -/
inductive Reaches (graph : Graph) (start : String) : Node → Prop
  | start {node : Node} (hnode : graph.get? start = some node) : Reaches graph start node
  | link {parent node : Node} {target : String} (hparent : Reaches graph start parent)
    (htarget : target ∈ parent.targets) (hnode : graph.get? target = some node) :
    Reaches graph start node

theorem Reaches.get?_eq (h : graph.Reaches start node) : graph.get? node.id = some node := by
  cases h with
  | start hnode =>
    obtain rfl := id_of_get? hnode
    exact hnode
  | link hparent htarget hnode =>
    obtain rfl := id_of_get? hnode
    exact hnode

/-- **The search lists the nodes that are reached**, and no others. -/
theorem mem_reachable_iff : node ∈ graph.reachable start ↔ graph.Reaches start node := by
  constructor
  · refine forall_mem_explore ?_ ?_ node
    · intro id hid node hnode
      obtain rfl := List.mem_singleton.1 hid
      exact .start hnode
    · intro parent hparent target htarget node hnode
      exact hparent.link htarget hnode
  · intro h
    induction h with
    | start hnode => exact mem_explore_of_mem_queue List.mem_cons_self hnode
    | link hparent htarget hnode ih => exact mem_explore_of_target ih htarget hnode

/-- The search lists a node of that id. -/
def Lists (graph : Graph) (start id : String) : Prop :=
  id ∈ (graph.reachable start).map Node.id

theorem lists_iff : graph.Lists start id ↔ ∃ node, graph.Reaches start node ∧ node.id = id := by
  simp only [Lists, List.mem_map, mem_reachable_iff]

theorem lists_start (h : graph.contains start = true) : graph.Lists start start := by
  obtain ⟨node, hnode⟩ := contains_iff.1 h
  exact lists_iff.2 ⟨node, .start hnode, id_of_get? hnode⟩

/-- From a listed node the choices lead to listed nodes, if they lead to a node at all. -/
theorem Lists.link (h : graph.Lists start source) (hlink : graph.Link source target)
    (htarget : graph.contains target = true) : graph.Lists start target := by
  obtain ⟨parent, hparent, rfl⟩ := lists_iff.1 h
  obtain ⟨source, hsource, hmem⟩ := hlink
  -- the node of an id is the one that was reached
  obtain rfl := Option.some.inj (hparent.get?_eq.symm.trans hsource)
  obtain ⟨node, hnode⟩ := contains_iff.1 htarget
  exact lists_iff.2 ⟨node, hparent.link hmem hnode, id_of_get? hnode⟩

/-- **A walk** from `start`: it begins there, and a choice leads from each of its nodes to the
next. -/
structure Walk (graph : Graph) (start : String) (trail : List String) : Prop where
  head?_eq : trail.head? = some start
  links : trail.IsChain graph.Link

theorem Walk.single (graph : Graph) (start : String) : graph.Walk start [start] where
  head?_eq := rfl
  links := .singleton start

theorem Walk.link {trail : List String} (h : graph.Walk start (trail ++ [source]))
    (hlink : graph.Link source target) : graph.Walk start (trail ++ [source] ++ [target]) where
  head?_eq := by
    rw [List.head?_append, h.head?_eq]
    rfl
  links := by
    rw [List.append_assoc, List.singleton_append, List.isChain_append_cons_cons]
    exact ⟨h.links, hlink, .singleton target⟩

end Sidescroller.Story.Graph
