import Mathlib.Data.Nat.Find
import Sidescroller.Proofs.Story.Search

/-!
# The search goes breadth first

`Graph.reachable` looks whether a node has been listed when it takes its id from the queue, so an id
may be queued several times. The textbook search marks a node when it is queued, so its queue has
every node once. Both list the same nodes in the same order: the ones that are nearer come first,
and of those that are equally near the one that was discovered first.

* `Graph.breadthFirst` — the textbook search; `Graph.explore_without` — the two searches agree;
* `Graph.Distance` — the least number of links to a node;
* `discovery` — the first link of a list to a node; `Graph.pairwise_scan` — nodes come in the order
  of their discovery;
* `Graph.exists_path_of_le` — so no node comes before one that is nearer;
* `reachable_breadth_first` — all of it for the search from a start.
-/

namespace Sidescroller.Story.Graph

variable {graph : Graph} {unlisted : List Node} {queue marked ids path : List String} {node : Node}
  {id start source target : String}

/-! ### The textbook search -/

/-- Goes through ids in order, and finds the nodes that have them and are not marked. They are
marked when they are found. Returns them, and all marked ids. -/
def scan (graph : Graph) (marked : List String) : List String → List Node × List String
  | [] => ([], marked)
  | id :: ids =>
    match graph.get? id with
    | none => graph.scan marked ids
    | some node =>
      if marked.contains id then graph.scan marked ids
      else
        let (found, marked) := graph.scan (marked ++ [id]) ids
        (node :: found, marked)

/-- An id that is marked, or that no node has, is passed over. -/
theorem scan_pass (h : id ∈ marked ∨ graph.get? id = none) (ids : List String) :
    graph.scan marked (id :: ids) = graph.scan marked ids := by
  cases hget : graph.get? id with
  | none => simp only [scan, hget]
  | some node =>
    have hmarked : id ∈ marked := h.resolve_right (by rw [hget]; exact Option.some_ne_none node)
    simp only [scan, hget, List.contains_iff_mem, if_pos hmarked]

theorem scan_find (hget : graph.get? id = some node) (hnew : id ∉ marked) (ids : List String) :
    graph.scan marked (id :: ids) =
      (node :: (graph.scan (marked ++ [id]) ids).1, (graph.scan (marked ++ [id]) ids).2) := by
  simp only [scan, hget, List.contains_iff_mem, if_neg hnew]

/-- **Induction along a scan**: the first id is passed over, or its node is found. -/
@[elab_as_elim]
theorem scan_induction (graph : Graph) {motive : List String → List String → Prop}
    (done : ∀ marked, motive marked [])
    (pass : ∀ marked id ids, id ∈ marked ∨ graph.get? id = none → motive marked ids →
      motive marked (id :: ids))
    (find : ∀ marked id ids node, graph.get? id = some node → id ∉ marked →
      motive (marked ++ [id]) ids → motive marked (id :: ids))
    (marked ids : List String) : motive marked ids := by
  induction ids generalizing marked with
  | nil => exact done marked
  | cons id ids ih =>
    by_cases hmarked : id ∈ marked
    · exact pass marked id ids (Or.inl hmarked) (ih marked)
    · cases hget : graph.get? id with
      | none => exact pass marked id ids (Or.inr hget) (ih marked)
      | some node => exact find marked id ids node hget hmarked (ih (marked ++ [id]))

theorem scan_append (graph : Graph) (marked first second : List String) :
    graph.scan marked (first ++ second) =
      ((graph.scan marked first).1 ++ (graph.scan (graph.scan marked first).2 second).1,
        (graph.scan (graph.scan marked first).2 second).2) := by
  induction marked, first using graph.scan_induction with
  | done marked => rfl
  | pass marked id ids hpass ih => rw [List.cons_append, scan_pass hpass, scan_pass hpass, ih]
  | find marked id ids node hget hnew ih =>
    rw [List.cons_append, scan_find hget hnew, scan_find hget hnew, ih]
    rfl

/-- A node that is found has one of the ids, and was not marked. -/
theorem of_mem_scan (h : node ∈ (graph.scan marked ids).1) :
    node.id ∈ ids ∧ node.id ∉ marked ∧ graph.get? node.id = some node := by
  induction marked, ids using graph.scan_induction with
  | done marked => cases h
  | pass marked id ids hpass ih =>
    rw [scan_pass hpass] at h
    obtain ⟨hid, hrest⟩ := ih h
    exact ⟨List.mem_cons_of_mem _ hid, hrest⟩
  | find marked id ids first hget hnew ih =>
    rw [scan_find hget hnew] at h
    rcases List.mem_cons.1 h with rfl | h
    · obtain rfl := id_of_get? hget
      exact ⟨List.mem_cons_self, hnew, hget⟩
    · obtain ⟨hid, hmarked, hnode⟩ := ih h
      exact ⟨List.mem_cons_of_mem _ hid, fun hmem => hmarked (List.mem_append_left _ hmem), hnode⟩

/-- What was marked stays marked. -/
theorem subset_scan (graph : Graph) (marked ids : List String) :
    marked ⊆ (graph.scan marked ids).2 := by
  induction marked, ids using graph.scan_induction with
  | done marked => exact List.Subset.refl marked
  | pass marked id ids hpass ih =>
    rw [scan_pass hpass]
    exact ih
  | find marked id ids node hget hnew ih =>
    rw [scan_find hget hnew]
    intro other hother
    exact ih (List.mem_append_left [id] hother)

/-- Whatever has a node is marked once it has been scanned. -/
theorem mem_scan_of_mem (h : id ∈ ids) (hnode : graph.contains id = true) :
    id ∈ (graph.scan marked ids).2 := by
  induction marked, ids using graph.scan_induction with
  | done marked => cases h
  | pass marked first ids hpass ih =>
    rw [scan_pass hpass]
    rcases List.mem_cons.1 h with rfl | h
    · obtain ⟨node, hget⟩ := contains_iff.1 hnode
      exact graph.subset_scan marked ids (hpass.resolve_right (by rw [hget]; exact nofun))
    · exact ih h
  | find marked first ids node hget hnew ih =>
    rw [scan_find hget hnew]
    rcases List.mem_cons.1 h with rfl | h
    · exact graph.subset_scan _ ids (List.mem_append_right _ List.mem_cons_self)
    · exact ih h

/-- What is passed over is not found. -/
theorem ne_of_mem_scan (hpass : id ∈ marked ∨ graph.get? id = none)
    (h : node ∈ (graph.scan marked ids).1) : id ≠ node.id := by
  obtain ⟨-, hnew, hget⟩ := of_mem_scan h
  rintro rfl
  rcases hpass with hmarked | hmissing
  · exact hnew hmarked
  · cases hmissing.symm.trans hget

/-- What is found by one scan after another was not among the ids of the first one. -/
theorem not_mem_of_mem_scan_scan {first second : List String}
    (h : node ∈ (graph.scan (graph.scan marked first).2 second).1) : node.id ∉ first := by
  obtain ⟨-, hnew, hget⟩ := of_mem_scan h
  exact fun hmem => hnew (mem_scan_of_mem hmem (contains_of_get? hget))

/-- What is found has been unmarked before. -/
theorem length_scan_le (graph : Graph) (marked ids : List String) :
    (graph.without (graph.scan marked ids).2).length + (graph.scan marked ids).1.length ≤
      (graph.without marked).length := by
  induction marked, ids using graph.scan_induction with
  | done marked => exact le_rfl
  | pass marked id ids hpass ih =>
    rw [scan_pass hpass]
    exact ih
  | find marked id ids node hget hnew ih =>
    have hsome := find?_without_eq_some_iff.2 ⟨hnew, hget⟩
    have hlt : (graph.without (marked ++ [id])).length < (graph.without marked).length := by
      rw [without_concat]
      exact List.length_filter_lt_length_iff_exists.2
        ⟨node, List.mem_of_find?_eq_some hsome, by simpa using List.find?_some hsome⟩
    rw [scan_find hget hnew]
    dsimp only
    rw [List.length_cons]
    omega

/-- The textbook search: takes nodes from the queue, lists them, and queues what is found behind
their choices. -/
def sweep (graph : Graph) (marked : List String) (queue : List Node) : List Node :=
  match queue with
  | [] => []
  | node :: queue =>
    have := graph.length_scan_le marked node.targets
    node :: graph.sweep (graph.scan marked node.targets).2
      (queue ++ (graph.scan marked node.targets).1)
termination_by (graph.without marked).length + queue.length
decreasing_by
  rw [List.length_append, List.length_cons]
  omega

/-- **Breadth-first search** as textbooks have it. -/
def breadthFirst (graph : Graph) (start : String) : List Node :=
  match graph.get? start with
  | none => []
  | some node => graph.sweep [start] [node]

/-- **The two searches agree**: the textbook search has in its queue what a scan finds in the other
queue. -/
theorem explore_without (graph : Graph) (marked queue : List String) :
    explore (graph.without marked) queue =
      graph.sweep (graph.scan marked queue).2 (graph.scan marked queue).1 := by
  generalize hunlisted : graph.without marked = unlisted
  induction unlisted, queue using explore_induction generalizing marked with
  | done unlisted => rw [explore, scan, sweep]
  | skip unlisted id queue hnone ih =>
    subst hunlisted
    rw [explore_skip hnone, scan_pass (find?_without_eq_none_iff.1 hnone)]
    exact ih marked rfl
  | list unlisted id queue node hsome ih =>
    subst hunlisted
    obtain ⟨hnew, hget⟩ := find?_without_eq_some_iff.1 hsome
    rw [explore_list hsome, scan_find hget hnew, sweep,
      ih (marked ++ [id]) (graph.without_concat marked id), scan_append]

/-- **The textbook search lists what a scan of all its links finds**, behind what was queued. -/
theorem sweep_eq (graph : Graph) (marked : List String) (queue : List Node) :
    graph.sweep marked queue =
      queue ++ (graph.scan marked ((graph.sweep marked queue).flatMap Node.targets)).1 := by
  fun_induction sweep graph marked queue with
  | case1 marked => rfl
  | case2 marked node queue this ih =>
    -- the targets of the node are scanned first, and what they lead to is queued
    rw [List.flatMap_cons, scan_append, List.cons_append, ← List.append_assoc, ← ih]

/-- **The search of a graph** is the textbook search. -/
theorem reachable_eq_breadthFirst (graph : Graph) (start : String) :
    graph.reachable start = graph.breadthFirst start := by
  unfold reachable breadthFirst
  rw [← graph.without_nil, explore_without]
  cases hget : graph.get? start with
  | none => rw [scan_pass (Or.inr hget), scan, sweep]
  | some node => rw [scan_find hget List.not_mem_nil, scan, List.nil_append]

/-! ### Discovery -/

/-- Where an id is met first: at which node of a list, and at which of its choices. -/
structure Discovery where
  parent : Nat
  choice : Nat

/-- The one is met before the other: at a node that comes before, or at the same node and at a
choice that comes before. -/
def Discovery.Before (first second : Discovery) : Prop :=
  first.parent < second.parent ∨ first.parent = second.parent ∧ first.choice < second.choice

/-- **The first link to an id** from the nodes of a list: the first of them that has such a choice,
and the first choice of it. -/
def discovery (nodes : List Node) (id : String) : Discovery where
  parent := nodes.findIdx fun node => node.targets.contains id
  choice :=
    match nodes.find? fun node => node.targets.contains id with
    | none => 0
    | some node => node.choices.findIdx (·.next == some id)

variable {nodes : List Node}

theorem discovery_cons_of_mem (h : id ∈ node.targets) :
    discovery (node :: nodes) id = ⟨0, node.choices.findIdx (·.next == some id)⟩ := by
  simp [discovery, List.findIdx_cons, h]

theorem discovery_cons_of_not_mem (h : id ∉ node.targets) :
    discovery (node :: nodes) id =
      ⟨(discovery nodes id).parent + 1, (discovery nodes id).choice⟩ := by
  simp [discovery, List.findIdx_cons, h]

/-- An id is met at a node with a link to it, and no later than at any other one. -/
theorem discovery_spec {i : Nat} (hnode : nodes[i]? = some node) (h : id ∈ node.targets) :
    (discovery nodes id).parent ≤ i ∧
      ∃ parent, nodes[(discovery nodes id).parent]? = some parent ∧ id ∈ parent.targets := by
  induction nodes generalizing i with
  | nil => cases hnode
  | cons first nodes ih =>
    by_cases hfirst : id ∈ first.targets
    · rw [discovery_cons_of_mem hfirst]
      exact ⟨Nat.zero_le i, first, rfl, hfirst⟩
    · rw [discovery_cons_of_not_mem hfirst]
      cases i with
      | zero =>
        obtain rfl := Option.some.inj hnode
        exact absurd h hfirst
      | succ i =>
        obtain ⟨hle, parent, hparent, hlink⟩ := ih hnode
        exact ⟨Nat.succ_le_succ hle, parent, hparent, hlink⟩

theorem findIdx_cons_of_ne {choice : Choice} {choices : List Choice} (h : choice.next ≠ some id) :
    (choice :: choices).findIdx (·.next == some id) = choices.findIdx (·.next == some id) + 1 := by
  rw [List.findIdx_cons, beq_eq_false_iff_ne.2 h]
  rfl

/-- Among the choices of one node, nodes are found in the order in which they are met. -/
theorem pairwise_scan_choices (graph : Graph) (marked : List String) (choices : List Choice) :
    (graph.scan marked (choices.filterMap (·.next))).1.Pairwise fun first second =>
      choices.findIdx (·.next == some first.id) < choices.findIdx (·.next == some second.id) := by
  induction choices generalizing marked with
  | nil => exact .nil
  | cons choice choices ih =>
    -- what is found behind a choice that leads elsewhere is found one place later
    have hlater : ∀ {marked : List String},
        (∀ node ∈ (graph.scan marked (choices.filterMap (·.next))).1,
          choice.next ≠ some node.id) →
        (graph.scan marked (choices.filterMap (·.next))).1.Pairwise fun first second =>
          (choice :: choices).findIdx (·.next == some first.id) <
            (choice :: choices).findIdx (·.next == some second.id) := by
      intro marked hne
      refine (ih marked).imp_of_mem ?_
      intro first second hfirst hsecond hlt
      rw [findIdx_cons_of_ne (hne first hfirst), findIdx_cons_of_ne (hne second hsecond)]
      exact Nat.succ_lt_succ hlt
    cases hnext : choice.next with
    | none =>
      rw [List.filterMap_cons_none hnext]
      exact hlater fun node _ => by rw [hnext]; exact nofun
    | some target =>
      rw [List.filterMap_cons_some hnext]
      by_cases hpass : target ∈ marked ∨ graph.get? target = none
      · rw [scan_pass hpass]
        refine hlater fun node hnode => ?_
        rw [hnext, ne_eq, Option.some.injEq]
        exact ne_of_mem_scan hpass hnode
      · rw [not_or] at hpass
        obtain ⟨node, hget⟩ := Option.ne_none_iff_exists'.1 hpass.2
        have hne : ∀ other ∈ (graph.scan (marked ++ [target]) (choices.filterMap (·.next))).1,
            choice.next ≠ some other.id := by
          intro other hother
          rw [hnext, ne_eq, Option.some.injEq]
          exact ne_of_mem_scan (Or.inl (List.mem_append_right _ List.mem_cons_self)) hother
        rw [scan_find hget hpass.1, List.pairwise_cons]
        refine ⟨?_, hlater hne⟩
        intro other hother
        obtain rfl := id_of_get? hget
        rw [findIdx_cons_of_ne (hne other hother), List.findIdx_cons, hnext, beq_self_eq_true]
        exact Nat.succ_pos _

/-- **Nodes are found in the order of their discovery.** -/
theorem pairwise_scan (graph : Graph) (marked : List String) (nodes : List Node) :
    (graph.scan marked (nodes.flatMap Node.targets)).1.Pairwise fun first second =>
      (discovery nodes first.id).Before (discovery nodes second.id) := by
  induction nodes generalizing marked with
  | nil => exact .nil
  | cons node nodes ih =>
    rw [List.flatMap_cons, scan_append, List.pairwise_append]
    refine ⟨?_, ?_, ?_⟩
    · -- both are found at the first node
      refine (graph.pairwise_scan_choices marked node.choices).imp_of_mem ?_
      intro first second hfirst hsecond hlt
      rw [discovery_cons_of_mem (of_mem_scan hfirst).1,
        discovery_cons_of_mem (of_mem_scan hsecond).1]
      exact Or.inr ⟨rfl, hlt⟩
    · -- neither of them is
      refine (ih _).imp_of_mem ?_
      intro first second hfirst hsecond hbefore
      rw [discovery_cons_of_not_mem (not_mem_of_mem_scan_scan hfirst),
        discovery_cons_of_not_mem (not_mem_of_mem_scan_scan hsecond)]
      exact hbefore.imp Nat.succ_lt_succ fun h => ⟨congrArg Nat.succ h.1, h.2⟩
    · -- only the first one is
      intro first hfirst second hsecond
      rw [discovery_cons_of_mem (of_mem_scan hfirst).1,
        discovery_cons_of_not_mem (not_mem_of_mem_scan_scan hsecond)]
      exact Or.inl (Nat.succ_pos _)

/-- What is listed behind the start is what a scan of all links of the list finds. -/
theorem tail_reachable (graph : Graph) (start : String) :
    (graph.reachable start).tail =
      (graph.scan [start] ((graph.reachable start).flatMap Node.targets)).1 := by
  rw [reachable_eq_breadthFirst]
  unfold breadthFirst
  cases graph.get? start with
  | none => rfl
  | some node => exact congrArg List.tail (graph.sweep_eq [start] [node])

/-! ### The order of the list -/

section Order

variable {p q i : Nat} {first second : Node}

/-- Only the first node of the list has the id of the start. -/
theorem eq_zero_of_id_eq_start (hnode : (graph.reachable start)[i]? = some node)
    (hid : node.id = start) : i = 0 := by
  have hget := (mem_reachable_iff.1 (List.mem_of_getElem? hnode)).get?_eq
  rw [hid, ← head?_reachable, List.head?_eq_getElem?] at hget
  obtain ⟨hlt, -⟩ := List.getElem?_eq_some_iff.1 hnode
  refine (List.getElem?_inj ?_ (nodup_ids_explore graph.nodes [start])).1 ?_
  · rwa [List.length_map]
  show ((graph.reachable start).map Node.id)[i]? = ((graph.reachable start).map Node.id)[0]?
  rw [List.getElem?_map, List.getElem?_map, hnode, hget]

theorem id_of_getElem?_zero (hnode : (graph.reachable start)[0]? = some node) :
    node.id = start := by
  rw [← List.head?_eq_getElem?, head?_reachable] at hnode
  exact id_of_get? hnode

/-- Every other node is discovered. -/
theorem exists_discovery (hnode : (graph.reachable start)[i + 1]? = some node) :
    ∃ parent,
      (graph.reachable start)[(discovery (graph.reachable start) node.id).parent]? = some parent ∧
        node.id ∈ parent.targets := by
  cases mem_reachable_iff.1 (List.mem_of_getElem? hnode) with
  | start hstart => cases eq_zero_of_id_eq_start hnode (id_of_get? hstart)
  | link hparent htarget hget =>
    obtain rfl := id_of_get? hget
    obtain ⟨j, hj⟩ := List.mem_iff_getElem?.1 (mem_reachable_iff.2 hparent)
    exact (discovery_spec hj htarget).2

/-- **The list goes by discovery**, behind the start. -/
theorem pairwise_tail_reachable (graph : Graph) (start : String) :
    (graph.reachable start).tail.Pairwise fun first second =>
      (discovery (graph.reachable start) first.id).Before
        (discovery (graph.reachable start) second.id) := by
  rw [tail_reachable]
  exact graph.pairwise_scan [start] (graph.reachable start)

theorem discovery_parent_mono (hfirst : (graph.reachable start)[p + 1]? = some first)
    (hsecond : (graph.reachable start)[q + 1]? = some second) (hle : p ≤ q) :
    (discovery (graph.reachable start) first.id).parent ≤
      (discovery (graph.reachable start) second.id).parent := by
  rcases hle.eq_or_lt with rfl | hlt
  · obtain rfl := Option.some.inj (hfirst.symm.trans hsecond)
    exact le_rfl
  · rw [← List.getElem?_tail] at hfirst hsecond
    obtain ⟨hp, rfl⟩ := List.getElem?_eq_some_iff.1 hfirst
    obtain ⟨hq, rfl⟩ := List.getElem?_eq_some_iff.1 hsecond
    rcases List.pairwise_iff_getElem.1 (graph.pairwise_tail_reachable start) p q hp hq hlt with
      hparent | ⟨hparent, -⟩
    · exact hparent.le
    · exact hparent.le

/-- **No node comes before one that is nearer**: with a path to a node there is one to each node
before it that is not longer. -/
theorem exists_path_of_le (hfirst : (graph.reachable start)[p]? = some first)
    (hsecond : (graph.reachable start)[q]? = some second) (hle : p ≤ q)
    (hpath : graph.Path start second.id path) :
    ∃ path', graph.Path start first.id path' ∧ path'.length ≤ path.length := by
  -- the last link of the path is no earlier than the discovery of its last node, and that is no
  -- earlier than the one of the first node; so the parents are in order as well
  induction path using List.reverseRecOn generalizing p q first second with
  | nil => cases hpath.getLast?_eq
  | append_singleton before last ih =>
    rcases hpath.cases_last with ⟨-, hstart⟩ | ⟨source, before', heq, hbefore, parent, hget, hlink⟩
    · obtain rfl := eq_zero_of_id_eq_start hsecond hstart
      obtain rfl := Nat.le_zero.1 hle
      obtain rfl := Option.some.inj (hfirst.symm.trans hsecond)
      exact ⟨_, hpath, le_rfl⟩
    · obtain ⟨rfl, -⟩ := List.append_inj' heq rfl
      obtain rfl := id_of_get? hget
      have hcontains : graph.contains first.id = true :=
        contains_of_get? (mem_reachable_iff.1 (List.mem_of_getElem? hfirst)).get?_eq
      cases p with
      | zero =>
        have hid := id_of_getElem?_zero hfirst
        refine ⟨[start], hid ▸ .single (hid ▸ hcontains), ?_⟩
        rw [List.length_append]
        exact Nat.le_add_left 1 _
      | succ p =>
        obtain ⟨q, rfl⟩ : ∃ q', q = q' + 1 := ⟨q - 1, by omega⟩
        have hparent := mem_reachable_iff.2 (reaches_of_path hget hbefore)
        obtain ⟨i, hi⟩ := List.mem_iff_getElem?.1 hparent
        have hmono := discovery_parent_mono hfirst hsecond (Nat.le_of_succ_le_succ hle)
        obtain ⟨earlier, hearlier, hdiscovers⟩ := exists_discovery hfirst
        obtain ⟨path', hpath', hshort⟩ :=
          ih hearlier hi (hmono.trans (discovery_spec hi hlink).1) hbefore
        have hget' := (mem_reachable_iff.1 (List.mem_of_getElem? hearlier)).get?_eq
        refine ⟨_, hpath'.link ⟨earlier, hget', hdiscovers⟩ hcontains, ?_⟩
        rw [List.length_append, List.length_append]
        exact Nat.add_le_add_right hshort 1

end Order

/-! ### Distances -/

/-- **The distance** from the start: the least number of links of a path. -/
structure Distance (graph : Graph) (start target : String) (n : Nat) : Prop where
  exists_path : ∃ path, graph.Path start target path ∧ path.length = n + 1
  le : ∀ path, graph.Path start target path → n + 1 ≤ path.length

theorem exists_distance (h : graph.Reaches start node) :
    ∃ n, graph.Distance start node.id n := by
  classical
  obtain ⟨path, hpath⟩ := exists_path_of_reaches h
  have hlengths : ∃ n path, graph.Path start node.id path ∧ path.length = n + 1 :=
    ⟨path.length - 1, path, hpath, by have := hpath.length_pos; omega⟩
  refine ⟨Nat.find hlengths, Nat.find_spec hlengths, ?_⟩
  intro path hpath
  have hpos := hpath.length_pos
  have hle := Nat.find_min' hlengths ⟨path, hpath, (Nat.sub_add_cancel hpos).symm⟩
  omega

/-- A node is discovered before it is listed: on a shortest path to it the last link comes from a
node that is nearer, which is listed before it. -/
theorem discovery_parent_le_of_succ {i : Nat}
    (hnode : (graph.reachable start)[i + 1]? = some node) :
    (discovery (graph.reachable start) node.id).parent ≤ i := by
  obtain ⟨n, ⟨path, hpath, hlength⟩, hleast⟩ :=
    exists_distance (mem_reachable_iff.1 (List.mem_of_getElem? hnode))
  rcases hpath.cases_last with ⟨-, hstart⟩ | ⟨source, before, rfl, hbefore, parent, hget, hlink⟩
  · cases eq_zero_of_id_eq_start hnode hstart
  · obtain rfl := id_of_get? hget
    obtain ⟨j, hj⟩ := List.mem_iff_getElem?.1 (mem_reachable_iff.2 (reaches_of_path hget hbefore))
    have hji : j ≤ i := by
      by_contra hij
      obtain ⟨path, hpath, hshort⟩ := exists_path_of_le hnode hj (Nat.not_le.1 hij) hbefore
      have hle := hleast path hpath
      rw [List.length_append, List.length_singleton] at hlength
      omega
    exact (discovery_spec hj hlink).1.trans hji

/-- **The search goes breadth first.** For every graph and every start the list is the one of the
textbook search. Every node of it has a distance from the start, and the nodes come in the order of
their distances. Behind the start, every node is discovered by a node that comes before it, and the
nodes come in the order of their discovery: first those that an earlier node leads to, and of those
that the same node discovers first the ones with an earlier choice. -/
theorem reachable_breadth_first (graph : Graph) (start : String) :
    let list := graph.reachable start
    list = graph.breadthFirst start ∧
    (∀ node ∈ list, ∃ n, graph.Distance start node.id n) ∧
    (list.Pairwise fun first second => ∀ m n, graph.Distance start first.id m →
      graph.Distance start second.id n → m ≤ n) ∧
    (∀ i node, list[i + 1]? = some node →
      ∃ parent, list[(discovery list node.id).parent]? = some parent ∧
        node.id ∈ parent.targets ∧ (discovery list node.id).parent ≤ i) ∧
    list.tail.Pairwise fun first second =>
      (discovery list first.id).Before (discovery list second.id) := by
  intro list
  refine ⟨graph.reachable_eq_breadthFirst start, ?_, ?_, ?_, graph.pairwise_tail_reachable start⟩
  · intro node hnode
    exact exists_distance (mem_reachable_iff.1 hnode)
  · rw [List.pairwise_iff_getElem]
    intro p q hp hq hlt m n hfirst hsecond
    obtain ⟨path, hpath, hlength⟩ := hsecond.exists_path
    obtain ⟨path', hpath', hshort⟩ := exists_path_of_le (List.getElem?_eq_getElem hp)
      (List.getElem?_eq_getElem hq) hlt.le hpath
    have hle := hfirst.le path' hpath'
    omega
  · intro i node hnode
    obtain ⟨parent, hparent, hlink⟩ := exists_discovery hnode
    exact ⟨parent, hparent, hlink, discovery_parent_le_of_succ hnode⟩

end Sidescroller.Story.Graph
