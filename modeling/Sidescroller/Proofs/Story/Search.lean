import Mathlib.Algebra.Order.BigOperators.Group.List
import Mathlib.Algebra.Order.Ring.Nat
import Sidescroller.Proofs.Story.Reach

/-!
# The search for reachable nodes ends, and is exact

A search keeps a queue of ids. An id may be queued several times, and ids that no node has are
queued as well, so the length of the queue does not tell how far the search has come. What does is
the queue together with all links that may still be queued: every round uses up one of them.

* `Graph.Path` — a walk through nodes of the graph; `Graph.reaches_iff_path` — it leads to the nodes
  that are reached;
* `Graph.nodup_ids_explore`, `Graph.head?_reachable` — what the list of a search looks like;
* `Graph.Search`, `Search.next?` — the search as a loop, one round at a time;
* `Search.work`, `Search.of_next?` — a round does some of the work, and changes nothing in the
  outcome; `Search.rounds_of_work_le` — so the loop ends, with the list of `Graph.reachable`;
* `reachable_exact` — all of it for the search from a start.
-/

namespace Sidescroller.Story.Graph

variable {graph : Graph} {unlisted : List Node} {queue path : List String} {node : Node}
  {id start source target : String}

/-! ### Paths -/

/-- **A path** to `last`: a walk through nodes of the graph that ends there. Without a link it is
the start alone. -/
structure Path (graph : Graph) (start last : String) (path : List String) : Prop where
  walk : graph.Walk start path
  contains : ∀ id ∈ path, graph.contains id = true
  getLast?_eq : path.getLast? = some last

namespace Path

theorem single (h : graph.contains start = true) : graph.Path start start [start] where
  walk := .single graph start
  contains := by
    intro id hid
    obtain rfl := List.mem_singleton.1 hid
    exact h
  getLast?_eq := rfl

theorem length_pos (h : graph.Path start target path) : 0 < path.length := by
  obtain ⟨before, rfl⟩ := List.getLast?_eq_some_iff.1 h.getLast?_eq
  exact List.length_pos_of_mem List.mem_concat_self

/-- A path goes on along a link to a node. -/
theorem link (h : graph.Path start source path) (hlink : graph.Link source target)
    (htarget : graph.contains target = true) : graph.Path start target (path ++ [target]) where
  walk := by
    obtain ⟨before, rfl⟩ := List.getLast?_eq_some_iff.1 h.getLast?_eq
    exact h.walk.link hlink
  contains := by
    intro id hid
    rcases List.mem_append.1 hid with hid | hid
    · exact h.contains id hid
    · obtain rfl := List.mem_singleton.1 hid
      exact htarget
  getLast?_eq := List.getLast?_concat

/-- **The last link** of a path, if it has any. -/
theorem cases_last (h : graph.Path start target path) :
    path = [start] ∧ target = start ∨
      ∃ source before, path = before ++ [target] ∧ graph.Path start source before ∧
        graph.Link source target := by
  obtain ⟨before, rfl⟩ := List.getLast?_eq_some_iff.1 h.getLast?_eq
  have hhead := h.walk.head?_eq
  cases hlast : before.getLast? with
  | none =>
    obtain rfl := List.getLast?_eq_none_iff.1 hlast
    obtain rfl := Option.some.inj hhead
    exact Or.inl ⟨rfl, rfl⟩
  | some source =>
    obtain ⟨hbefore, -, hlinked⟩ := List.isChain_append.1 h.walk.links
    have hne : before ≠ [] := by
      rintro rfl
      cases hlast
    refine Or.inr ⟨source, before, rfl, ⟨⟨?_, hbefore⟩, ?_, hlast⟩, ?_⟩
    · rwa [List.head?_append_of_ne_nil _ hne] at hhead
    · intro id hid
      exact h.contains id (List.mem_append_left _ hid)
    · exact hlinked source hlast target rfl

end Path

theorem exists_path_of_reaches (h : graph.Reaches start node) :
    ∃ path, graph.Path start node.id path := by
  induction h with
  | start hnode =>
    obtain rfl := id_of_get? hnode
    exact ⟨_, .single (contains_of_get? hnode)⟩
  | @link parent node target hparent htarget hnode ih =>
    obtain ⟨path, hpath⟩ := ih
    obtain rfl := id_of_get? hnode
    exact ⟨_, hpath.link ⟨parent, hparent.get?_eq, htarget⟩ (contains_of_get? hnode)⟩

theorem reaches_of_path (hget : graph.get? node.id = some node)
    (h : graph.Path start node.id path) : graph.Reaches start node := by
  -- along the path, from its end: what comes before the last link is a path as well
  induction path using List.reverseRecOn generalizing node with
  | nil => cases h.getLast?_eq
  | append_singleton before last ih =>
    rcases h.cases_last with
      ⟨-, hstart⟩ | ⟨source, before', heq, hbefore, ⟨parent, hparent, htarget⟩⟩
    · exact .start (hstart ▸ hget)
    · obtain ⟨rfl, -⟩ := List.append_inj' heq rfl
      obtain rfl := id_of_get? hparent
      exact (ih hparent hbefore).link htarget hget

/-- **Paths lead to the nodes that are reached.** -/
theorem reaches_iff_path :
    graph.Reaches start node ↔
      graph.get? node.id = some node ∧ ∃ path, graph.Path start node.id path := by
  constructor
  · intro h
    exact ⟨h.get?_eq, exists_path_of_reaches h⟩
  · rintro ⟨hget, path, hpath⟩
    exact reaches_of_path hget hpath

/-! ### The nodes that are left -/

/-- The nodes of the graph that have none of the ids. -/
def without (graph : Graph) (ids : List String) : List Node :=
  graph.nodes.filter fun node => !ids.contains node.id

theorem without_nil (graph : Graph) : graph.without [] = graph.nodes := List.filter_true _

theorem find?_without_of_mem {ids : List String} (h : id ∈ ids) :
    (graph.without ids).find? (·.id == id) = none := by
  rw [List.find?_eq_none]
  intro node hnode hid
  obtain rfl := beq_iff_eq.1 hid
  simpa [h] using (List.mem_filter.1 hnode).2

theorem find?_without {ids : List String} (h : id ∉ ids) :
    (graph.without ids).find? (·.id == id) = graph.get? id := by
  unfold without get?
  rw [List.find?_filter]
  congr 1
  funext node
  by_cases hid : node.id = id
  · simp [hid, h]
  · simp [hid]

theorem find?_without_eq_some_iff {ids : List String} :
    (graph.without ids).find? (·.id == id) = some node ↔ id ∉ ids ∧ graph.get? id = some node := by
  by_cases h : id ∈ ids
  · rw [find?_without_of_mem h]
    exact iff_of_false nofun fun hnot => hnot.1 h
  · rw [find?_without h, and_iff_right h]

theorem find?_without_eq_none_iff {ids : List String} :
    (graph.without ids).find? (·.id == id) = none ↔ id ∈ ids ∨ graph.get? id = none := by
  by_cases h : id ∈ ids
  · rw [find?_without_of_mem h]
    exact iff_of_true rfl (Or.inl h)
  · rw [find?_without h, or_iff_right h]

theorem without_concat (graph : Graph) (ids : List String) (id : String) :
    graph.without (ids ++ [id]) = (graph.without ids).filter (·.id != id) := by
  unfold without
  rw [List.filter_filter]
  apply List.filter_congr
  intro node _
  rw [Bool.eq_iff_iff]
  simp [and_comm]

/-! ### What a search lists -/

theorem mem_of_mem_explore (h : node ∈ explore unlisted queue) : node ∈ unlisted :=
  forall_mem_explore (fun _ _ _ hnode => List.mem_of_find?_eq_some hnode)
    (fun _ _ _ _ _ hnode => List.mem_of_find?_eq_some hnode) node h

/-- **No node is listed twice.** -/
theorem nodup_ids_explore (unlisted : List Node) (queue : List String) :
    ((explore unlisted queue).map Node.id).Nodup := by
  induction unlisted, queue using explore_induction with
  | done unlisted =>
    rw [explore]
    exact List.nodup_nil
  | skip unlisted id queue hnone ih =>
    rw [explore_skip hnone]
    exact ih
  | list unlisted id queue node hsome ih =>
    rw [explore_list hsome, List.map_cons, List.nodup_cons]
    refine ⟨?_, ih⟩
    intro hmem
    obtain ⟨other, hother, hid⟩ := List.mem_map.1 hmem
    -- what is listed later was left over when the node was listed
    have hne := (List.mem_filter.1 (mem_of_mem_explore hother)).2
    have hnode : node.id = id := by simpa using List.find?_some hsome
    exact bne_iff_ne.1 hne (hid.trans hnode)

theorem head?_reachable (graph : Graph) (start : String) :
    (graph.reachable start).head? = graph.get? start := by
  unfold reachable
  cases hget : graph.get? start with
  | none =>
    rw [explore_skip hget, explore]
    rfl
  | some node =>
    rw [explore_list hget]
    rfl

theorem reachable_eq_nil_iff : graph.reachable start = [] ↔ graph.contains start = false := by
  rw [← List.head?_eq_none_iff, head?_reachable, ← Bool.not_eq_true, contains_iff,
    ← Option.isSome_iff_exists, Option.not_isSome_iff_eq_none]

/-- Ids that have no node to list do not matter to the queue. -/
theorem explore_append_left (hnone : ∀ id ∈ queue, unlisted.find? (·.id == id) = none)
    (rest : List String) : explore unlisted (queue ++ rest) = explore unlisted rest := by
  induction queue with
  | nil => rfl
  | cons id queue ih =>
    obtain ⟨hid, hqueue⟩ := List.forall_mem_cons.1 hnone
    rw [List.cons_append, explore_skip hid]
    exact ih hqueue

/-- Whether a node of that id is still to be listed. -/
def awaits (unlisted : List Node) (id : String) : Bool := (unlisted.find? (·.id == id)).isSome

theorem awaits_of_awaits_filter (h : awaits (unlisted.filter (·.id != id)) target = true) :
    awaits unlisted target = true := by
  obtain ⟨node, hnode⟩ := Option.isSome_iff_exists.1 h
  exact Option.isSome_iff_exists.2 ⟨node, find?_of_find?_filter hnode⟩

theorem filter_awaits_filter (unlisted : List Node) (id : String) (queue : List String) :
    (queue.filter (awaits unlisted)).filter (awaits (unlisted.filter (·.id != id))) =
      queue.filter (awaits (unlisted.filter (·.id != id))) := by
  rw [List.filter_filter]
  apply List.filter_congr
  intro target _
  rw [Bool.and_eq_left_iff_imp]
  exact awaits_of_awaits_filter

/-- **Only ids that have a node to list matter to the queue.** -/
theorem explore_of_filter_eq {queue' : List String}
    (h : queue'.filter (awaits unlisted) = queue.filter (awaits unlisted)) :
    explore unlisted queue' = explore unlisted queue := by
  induction unlisted, queue using explore_induction generalizing queue' with
  | done unlisted =>
    have hnone : ∀ id ∈ queue', unlisted.find? (·.id == id) = none := by
      simpa [List.filter_eq_nil_iff, awaits] using h
    simpa using explore_append_left hnone []
  | skip unlisted id queue hnone ih =>
    rw [explore_skip hnone]
    apply ih
    rw [h, List.filter_cons_of_neg (by simp [awaits, hnone])]
  | list unlisted id queue node hsome ih =>
    -- the other queue begins with the same id, after some that do not matter
    rw [List.filter_cons_of_pos (by simp [awaits, hsome]), List.filter_eq_cons_iff] at h
    obtain ⟨before, after, rfl, hbefore, -, hafter⟩ := h
    have hnone : ∀ id ∈ before, unlisted.find? (·.id == id) = none := by
      intro id hid
      simpa [awaits] using hbefore id hid
    rw [explore_append_left hnone, explore_list hsome, explore_list hsome]
    congr 1
    apply ih
    rw [List.filter_append, List.filter_append, ← filter_awaits_filter unlisted id after, hafter,
      filter_awaits_filter]

/-! ### The search as a loop -/

/-- The links of a node go out of the sum over all nodes with it. -/
theorem sum_targets_filter (nodes : List Node) (h : node ∈ nodes) :
    ((nodes.filter (·.id != node.id)).map (·.targets.length)).sum + node.targets.length ≤
      (nodes.map (·.targets.length)).sum := by
  have hperm := List.filter_append_perm (·.id != node.id) nodes
  have hsplit := (hperm.map (·.targets.length)).sum_eq
  rw [List.map_append, List.sum_append] at hsplit
  have hnode : node.targets.length ∈
      (nodes.filter fun other => !(other.id != node.id)).map (·.targets.length) :=
    List.mem_map_of_mem (List.mem_filter.2 ⟨h, by simp⟩)
  have hle := List.le_sum_of_mem hnode
  omega

/-- A search between two rounds. -/
structure Search where
  /-- The nodes that have been listed, in order. -/
  listed : List Node
  /-- The ids that are still to be looked at. -/
  queue : List String

namespace Search

variable {search next : Search}

/-- The ids of the nodes that have been listed. -/
def ids (search : Search) : List String := search.listed.map Node.id

/-- **One round**: takes an id from the queue. Its node is listed, if there is one and it has not
been listed before, and those of its targets that have not been listed are queued. With an empty
queue there are no more rounds. -/
def next? (graph : Graph) (search : Search) : Option Search :=
  match search.queue with
  | [] => none
  | id :: queue =>
    match graph.get? id with
    | none => some { search with queue }
    | some node =>
      if search.ids.contains id then some { search with queue }
      else
        let search := { search with listed := search.listed ++ [node] }
        let fresh := node.targets.filter fun target => !search.ids.contains target
        some { search with queue := queue ++ fresh }

/-- A number of rounds, or fewer if the queue is empty before. -/
def rounds (graph : Graph) : Nat → Search → Search
  | 0, search => search
  | n + 1, search =>
    match search.next? graph with
    | none => search
    | some next => rounds graph n next

/-- The list that the search comes to. -/
def outcome (graph : Graph) (search : Search) : List Node :=
  search.listed ++ explore (graph.without search.ids) search.queue

/-- **What is left to do**: the ids in the queue, and the links that may still be queued. -/
def work (graph : Graph) (search : Search) : Nat :=
  search.queue.length + ((graph.without search.ids).map (·.targets.length)).sum

/-- An id that has no node to list is dropped. -/
theorem of_drop {queue : List String} (hqueue : search.queue = id :: queue)
    (hnone : (graph.without search.ids).find? (·.id == id) = none) :
    outcome graph { search with queue } = search.outcome graph ∧
      work graph { search with queue } < search.work graph := by
  unfold outcome work
  rw [hqueue, explore_skip hnone]
  exact ⟨rfl, Nat.add_lt_add_right (Nat.lt_succ_self _) _⟩

/-- What has been listed is not found any more, so that it does not matter whether it is queued. -/
theorem explore_without_filter (ids queue targets : List String) :
    explore (graph.without ids) (queue ++ targets.filter fun target => !ids.contains target) =
      explore (graph.without ids) (queue ++ targets) := by
  apply explore_of_filter_eq
  rw [List.filter_append, List.filter_append, List.filter_filter]
  congr 1
  apply List.filter_congr
  intro target _
  rw [Bool.and_eq_left_iff_imp]
  intro hawaits
  by_cases hlisted : target ∈ ids
  · rw [awaits, find?_without_of_mem hlisted] at hawaits
    cases hawaits
  · simpa using hlisted

/-- The node of an id is listed. -/
theorem of_list {queue : List String} (hqueue : search.queue = id :: queue)
    (hget : graph.get? id = some node) (hnew : id ∉ search.ids) :
    let listed : Search := { search with listed := search.listed ++ [node] }
    let fresh := node.targets.filter fun target => !listed.ids.contains target
    outcome graph { listed with queue := queue ++ fresh } = search.outcome graph ∧
      work graph { listed with queue := queue ++ fresh } < search.work graph := by
  intro listed fresh
  have hsome : (graph.without search.ids).find? (·.id == id) = some node :=
    find?_without_eq_some_iff.2 ⟨hnew, hget⟩
  obtain rfl := id_of_get? hget
  have hwithout : graph.without listed.ids =
      (graph.without search.ids).filter (·.id != node.id) := by
    rw [← without_concat, ids, List.map_append]
    rfl
  constructor
  · -- what is not queued again would have been skipped
    calc (search.listed ++ [node]) ++ explore (graph.without listed.ids) (queue ++ fresh)
      _ = (search.listed ++ [node]) ++
          explore (graph.without listed.ids) (queue ++ node.targets) := by
        rw [explore_without_filter]
      _ = search.listed ++ explore (graph.without search.ids) (node.id :: queue) := by
        rw [explore_list hsome, hwithout, ← List.append_cons]
      _ = search.outcome graph := by rw [outcome, hqueue]
  · -- the queue gains at most the targets, which the node takes away from what is to come
    have hsum := sum_targets_filter _ (List.mem_of_find?_eq_some hsome)
    have hlength : fresh.length ≤ node.targets.length := List.length_filter_le _ _
    show (queue ++ fresh).length + ((graph.without listed.ids).map (·.targets.length)).sum < _
    rw [work, hqueue, hwithout, List.length_append, List.length_cons]
    omega

/-- **A round** does some of the work, and leaves the outcome what it is. -/
theorem of_next? (h : search.next? graph = some next) :
    next.outcome graph = search.outcome graph ∧ next.work graph < search.work graph := by
  unfold next? at h
  cases hqueue : search.queue with
  | nil =>
    rw [hqueue] at h
    cases h
  | cons id queue =>
    simp only [hqueue, List.contains_iff_mem] at h
    cases hget : graph.get? id with
    | none =>
      rw [hget] at h
      obtain rfl := Option.some.inj h
      -- no node of the graph has the id, whether it has been listed or not
      exact of_drop hqueue (find?_without_eq_none_iff.2 (Or.inr hget))
    | some node =>
      simp only [hget] at h
      by_cases hlisted : id ∈ search.ids
      · rw [if_pos hlisted] at h
        obtain rfl := Option.some.inj h
        exact of_drop hqueue (find?_without_of_mem hlisted)
      · rw [if_neg hlisted] at h
        obtain rfl := Option.some.inj h
        exact of_list hqueue hget hlisted

theorem queue_of_next? (h : search.next? graph = none) : search.queue = [] := by
  unfold next? at h
  cases hqueue : search.queue with
  | nil => rfl
  | cons id queue =>
    simp only [hqueue] at h
    split at h
    · cases h
    · split at h <;> cases h

/-- **The loop ends** when the work is done. -/
theorem rounds_of_work_le {n : Nat} (h : search.work graph ≤ n) :
    rounds graph n search = ⟨search.outcome graph, []⟩ := by
  have hdone : ∀ search : Search, search.next? graph = none →
      search = ⟨search.outcome graph, []⟩ := by
    intro search hnone
    have hqueue := queue_of_next? hnone
    unfold outcome
    rw [hqueue, explore, List.append_nil, ← hqueue]
  induction n generalizing search with
  | zero =>
    apply hdone search
    cases hnext : search.next? graph with
    | none => rfl
    | some next =>
      -- a round would leave less work than none
      have hwork := (of_next? hnext).2
      omega
  | succ n ih =>
    unfold rounds
    cases hnext : search.next? graph with
    | none => exact hdone search hnext
    | some next =>
      obtain ⟨houtcome, hwork⟩ := of_next? hnext
      rw [← houtcome]
      exact ih (by omega)

end Search

/-- The number of links of a graph, dangling ones included. -/
def linkCount (graph : Graph) : Nat := (graph.nodes.map (·.targets.length)).sum

/-- **The loop ends** from a start, after at most one round for each link and one for the start. -/
theorem rounds_start (graph : Graph) (start : String) :
    Search.rounds graph (1 + graph.linkCount) ⟨[], [start]⟩ = ⟨graph.reachable start, []⟩ := by
  have hwork : Search.work graph ⟨[], [start]⟩ = 1 + graph.linkCount := by
    rw [Search.work, Search.ids, List.map_nil, without_nil]
    rfl
  rw [Search.rounds_of_work_le hwork.le, Search.outcome, Search.ids, List.map_nil, without_nil]
  rfl

/-- **The search is exact.** For every graph and every start the loop of the search ends: after at
most one round for each link and one for the start its queue is empty, and its list is the one of
`Graph.reachable`. No node is in this list twice. A node is in it exactly if it is one of the graph
and a path leads to it from the start, through nodes of the graph. The list is empty exactly if no
node has the id of the start; otherwise that node comes first. -/
theorem reachable_exact (graph : Graph) (start : String) :
    Search.rounds graph (1 + graph.linkCount) ⟨[], [start]⟩ = ⟨graph.reachable start, []⟩ ∧
    ((graph.reachable start).map Node.id).Nodup ∧
    (∀ node, node ∈ graph.reachable start ↔
      graph.get? node.id = some node ∧ ∃ path, graph.Path start node.id path) ∧
    (graph.reachable start = [] ↔ graph.contains start = false) ∧
    (graph.reachable start).head? = graph.get? start := by
  refine ⟨graph.rounds_start start, nodup_ids_explore _ _, ?_, reachable_eq_nil_iff,
    graph.head?_reachable start⟩
  intro node
  rw [mem_reachable_iff, reaches_iff_path]

end Sidescroller.Story.Graph
