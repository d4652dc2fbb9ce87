import Mathlib.Data.List.Count
import Sidescroller.Proofs.Story.Building
import Sidescroller.Proofs.Story.Dangling
import Sidescroller.Proofs.Text.ByteOrder

/-!
# The order of the nodes does not matter

A graph keeps its nodes in the order in which they came, and nobody can find out which that was.
Whoever asks a graph asks for the node of an id. The search for reachable nodes follows the choices
of the nodes it finds, in their order. Only the list of dangling links goes through all nodes, and
it is sorted: of links that the order does not tell apart, one is as good as the other, for they are
the same.

* `get?_of_perm` — what is found does not depend on the order;
* `explore_congr`, `reachable_of_get?_eq` — so neither does the search;
* `LinkLE`, `linkLE_iff` — the order in which links are sorted, by their bytes;
* `danglingCount`, `count_danglingLinks` — how often a link is listed;
* `eq_danglingLinks_iff`, `eq_danglingLinks_of_perm` — which list that of the dangling links is;
* `order_of_nodes_unobservable` — all of it for a list of nodes and a permutation.
-/

namespace Sidescroller.Story.Graph

open Text (bytes)

variable {graph graph' : Graph} {node : Node} {nodes nodes' unlisted unlisted' : List Node}
  {queue : List String} {id source target : String} {a b c : String × String}
  {links : List (String × String)}

/-! ### Looking nodes up -/

/-- What is found does not depend on the order of the nodes. -/
theorem get?_of_perm (h : graph.nodes.Perm graph'.nodes) (id : String) :
    graph'.get? id = graph.get? id := by
  apply Option.ext
  intro node
  rw [get?_eq_some_iff, get?_eq_some_iff, h.mem_iff]

theorem contains_of_get?_eq (h : graph'.get? id = graph.get? id) :
    graph'.contains id = graph.contains id := by
  rw [contains_eq_isSome_get?, contains_eq_isSome_get?, h]

/-! ### The search -/

/-- The search looks its nodes up and nothing else. -/
theorem explore_congr
    (h : ∀ id, unlisted'.find? (·.id == id) = unlisted.find? (·.id == id)) :
    explore unlisted' queue = explore unlisted queue := by
  induction unlisted, queue using explore_induction generalizing unlisted' with
  | done unlisted => rw [explore, explore]
  | skip unlisted id queue hnone ih =>
    rw [explore_skip hnone, explore_skip ((h id).trans hnone)]
    exact ih h
  | list unlisted id queue node hsome ih =>
    rw [explore_list hsome, explore_list ((h id).trans hsome)]
    congr 1
    apply ih
    intro target
    by_cases hid : id = target
    · -- the node that has just been listed is found in neither list
      subst hid
      have hgone : ∀ nodes : List Node,
          (nodes.filter (·.id != id)).find? (·.id == id) = none := by
        intro nodes
        simp [List.find?_eq_none]
      rw [hgone, hgone]
    · rw [find?_filter_ne _ hid, find?_filter_ne _ hid, h]

theorem reachable_of_get?_eq (h : ∀ id, graph'.get? id = graph.get? id) (start : String) :
    graph'.reachable start = graph.reachable start :=
  explore_congr h

/-! ### The order of links -/

/-- **The order of links**: by the bytes of the source, then by the bytes of the target. -/
def LinkLE (a b : String × String) : Prop :=
  bytes a.1 < bytes b.1 ∨ a.1 = b.1 ∧ bytes a.2 ≤ bytes b.2

theorem linkLE_iff : linkLE a b = true ↔ LinkLE a b := by
  unfold linkLE LinkLE
  rw [← List.not_lt, Text.bytes_lt_iff, Text.bytes_lt_iff]
  simp

instance : DecidableRel LinkLE := fun _ _ => decidable_of_iff _ linkLE_iff

theorem LinkLE.trans (hab : LinkLE a b) (hbc : LinkLE b c) : LinkLE a c := by
  unfold LinkLE at *
  rcases hab with hab | ⟨hab, hab'⟩
  · rcases hbc with hbc | ⟨hbc, -⟩
    · exact Or.inl (List.lt_trans hab hbc)
    · exact Or.inl (hbc ▸ hab)
  · rcases hbc with hbc | ⟨hbc, hbc'⟩
    · exact Or.inl (hab ▸ hbc)
    · exact Or.inr ⟨hab.trans hbc, List.le_trans hab' hbc'⟩

theorem LinkLE.total (a b : String × String) : LinkLE a b ∨ LinkLE b a := by
  unfold LinkLE
  by_cases hab : bytes a.1 < bytes b.1
  · exact Or.inl (Or.inl hab)
  by_cases hba : bytes b.1 < bytes a.1
  · exact Or.inr (Or.inl hba)
  have hsource : a.1 = b.1 := Text.bytes_eq_iff.1 (List.le_antisymm hba hab)
  rcases List.le_total (bytes a.2) (bytes b.2) with hle | hle
  · exact Or.inl (Or.inr ⟨hsource, hle⟩)
  · exact Or.inr (Or.inr ⟨hsource.symm, hle⟩)

/-- Links that the order does not tell apart are the same. -/
theorem LinkLE.antisymm (hab : LinkLE a b) (hba : LinkLE b a) : a = b := by
  unfold LinkLE at *
  rcases hab with hab | ⟨hsource, hab⟩
  · rcases hba with hba | ⟨hsource, -⟩
    · exact absurd hba (List.lt_asymm hab)
    · rw [hsource] at hab
      exact absurd hab (List.lt_irrefl _)
  · rcases hba with hba | ⟨-, hba⟩
    · rw [hsource] at hba
      exact absurd hba (List.lt_irrefl _)
    · exact Prod.ext hsource (Text.bytes_eq_iff.1 (List.le_antisymm hab hba))

/-! ### Dangling links -/

theorem perm_danglingLinks (graph : Graph) :
    graph.danglingLinks.Perm (graph.nodes.flatMap graph.danglingFrom) :=
  List.mergeSort_perm _ _

theorem pairwise_danglingLinks (graph : Graph) : graph.danglingLinks.Pairwise LinkLE := by
  have htrans (a b c : String × String) (hab : linkLE a b) (hbc : linkLE b c) : linkLE a c :=
    linkLE_iff.2 ((linkLE_iff.1 hab).trans (linkLE_iff.1 hbc))
  have htotal (a b : String × String) : linkLE a b || linkLE b a := by
    rw [Bool.or_eq_true, linkLE_iff, linkLE_iff]
    exact LinkLE.total a b
  exact (List.pairwise_mergeSort htrans htotal _).imp linkLE_iff.1

/-- Sorted lists of the same links are the same. -/
theorem eq_of_pairwise_linkLE {links' : List (String × String)} (h : links.Pairwise LinkLE)
    (h' : links'.Pairwise LinkLE) (hperm : links.Perm links') : links = links' :=
  List.Perm.eq_of_pairwise (fun _ _ _ _ => LinkLE.antisymm) h h' hperm

/-- **How often a link dangles**: as often as there are choices of the node `source` that lead to
`target`, if no node has that id. -/
def danglingCount (nodes : List Node) (source target : String) : Nat :=
  if target ∈ nodes.map Node.id then 0
  else ((nodes.filter (·.id == source)).flatMap Node.choices).countP (·.next == some target)

theorem count_danglingFrom (graph : Graph) (node : Node) (source target : String) :
    (graph.danglingFrom node).count (source, target) =
      if graph.contains target = false ∧ node.id = source then
        node.choices.countP (·.next == some target)
      else 0 := by
  by_cases hlink : graph.contains target = false ∧ node.id = source
  · obtain ⟨hmissing, rfl⟩ := hlink
    have hinjective : Function.Injective fun target : String => (node.id, target) :=
      fun _ _ heq => (Prod.mk.inj heq).2
    rw [if_pos ⟨hmissing, rfl⟩, danglingFrom, List.count_map_of_injective _ _ hinjective,
      List.count_filter (by simpa using hmissing), Node.targets, List.count_filterMap]
  · rw [if_neg hlink, List.count_eq_zero, mem_danglingFrom_iff]
    exact fun hmem => hlink ⟨hmem.2.2, hmem.1⟩

theorem count_flatMap_danglingFrom (graph : Graph) (nodes : List Node) (source target : String) :
    (nodes.flatMap graph.danglingFrom).count (source, target) =
      if graph.contains target = false then
        ((nodes.filter (·.id == source)).flatMap Node.choices).countP (·.next == some target)
      else 0 := by
  induction nodes with
  | nil => simp
  | cons node nodes ih =>
    rw [List.flatMap_cons, List.count_append, count_danglingFrom, ih]
    by_cases hmissing : graph.contains target = false
    · by_cases hsource : node.id = source
      · rw [if_pos ⟨hmissing, hsource⟩, if_pos hmissing, if_pos hmissing,
          List.filter_cons_of_pos (by simpa using hsource), List.flatMap_cons, List.countP_append]
      · rw [if_neg fun h => hsource h.2, if_pos hmissing, if_pos hmissing,
          List.filter_cons_of_neg (by simpa using hsource), Nat.zero_add]
    · rw [if_neg fun h => hmissing h.1, if_neg hmissing, if_neg hmissing]

theorem count_danglingLinks (graph : Graph) (source target : String) :
    graph.danglingLinks.count (source, target) = danglingCount graph.nodes source target := by
  rw [graph.perm_danglingLinks.count_eq, count_flatMap_danglingFrom, danglingCount]
  by_cases hmem : target ∈ graph.nodes.map Node.id
  · rw [if_pos hmem, if_neg (by simpa using contains_iff_mem_ids.2 hmem)]
  · rw [if_neg hmem, if_pos (by simpa using mt contains_iff_mem_ids.1 hmem)]

/-- **The dangling links** are the sorted list in which every link occurs as often as it dangles. -/
theorem eq_danglingLinks_iff :
    links = graph.danglingLinks ↔
      links.Pairwise LinkLE ∧
        ∀ source target, links.count (source, target) =
          danglingCount graph.nodes source target := by
  constructor
  · rintro rfl
    exact ⟨graph.pairwise_danglingLinks, graph.count_danglingLinks⟩
  · rintro ⟨hsorted, hcount⟩
    apply eq_of_pairwise_linkLE hsorted graph.pairwise_danglingLinks
    rw [List.perm_iff_count]
    rintro ⟨source, target⟩
    rw [hcount, count_danglingLinks]

/-- **In whatever order** the nodes are gone through, and however the links are sorted, the list is
the same. -/
theorem eq_danglingLinks_of_perm (hnodes : nodes.Perm graph.nodes)
    (hlinks : links.Perm (nodes.flatMap graph.danglingFrom)) (hsorted : links.Pairwise LinkLE) :
    links = graph.danglingLinks := by
  apply eq_of_pairwise_linkLE hsorted graph.pairwise_danglingLinks
  exact hlinks.trans ((hnodes.flatMap_right _).trans graph.perm_danglingLinks.symm)

/-- **The order of the nodes cannot be observed.** Nodes with different ids make a graph in whatever
order they come. Under every id the same is found, there are as many nodes, and from every start the
same nodes are reachable, in the same order. The same links dangle: of all lists theirs is the one
that is sorted by bytes and in which a link occurs once for each choice of its source that leads to
its target, if no node has the id of the target, and otherwise not at all. It comes about whatever
the order in which the nodes are gone through, and however their links are sorted. -/
theorem order_of_nodes_unobservable (hnodup : (nodes.map Node.id).Nodup)
    (hperm : nodes.Perm nodes') :
    ∃ graph graph', ofNodes nodes = .ok graph ∧ ofNodes nodes' = .ok graph' ∧
      (∀ id, graph'.get? id = graph.get? id ∧ graph'.contains id = graph.contains id) ∧
      graph'.size = graph.size ∧
      (∀ start, graph'.reachable start = graph.reachable start) ∧
      graph'.danglingLinks = graph.danglingLinks ∧
      (∀ links, links = graph.danglingLinks ↔
        links.Pairwise LinkLE ∧
          ∀ source target, links.count (source, target) = danglingCount nodes source target) ∧
      ∀ (order : List Node) links, order.Perm nodes →
        links.Perm (order.flatMap graph.danglingFrom) → links.Pairwise LinkLE →
        links = graph.danglingLinks := by
  obtain ⟨graph, hgraph⟩ := exists_ofNodes_iff.2 hnodup
  obtain ⟨graph', hgraph'⟩ := exists_ofNodes_iff.2 ((hperm.map Node.id).nodup_iff.1 hnodup)
  obtain rfl := nodes_of_ofNodes hgraph
  obtain rfl := nodes_of_ofNodes hgraph'
  have hget? := get?_of_perm hperm
  have hcontains : ∀ id, graph'.contains id = graph.contains id :=
    fun id => contains_of_get?_eq (hget? id)
  have hfrom : graph'.danglingFrom = graph.danglingFrom := by
    funext node
    simp only [danglingFrom, hcontains]
  refine ⟨graph, graph', hgraph, hgraph', fun id => ⟨hget? id, hcontains id⟩,
    hperm.length_eq.symm, reachable_of_get?_eq hget?, ?_, fun _ => eq_danglingLinks_iff, ?_⟩
  · apply eq_danglingLinks_of_perm hperm.symm _ graph'.pairwise_danglingLinks
    rw [← hfrom]
    exact graph'.perm_danglingLinks
  · intro order links horder hlinks hsorted
    exact eq_danglingLinks_of_perm horder hlinks hsorted

/-- Two choices of the porch lead to the same missing attic. -/
theorem order_of_nodes_unobservable_attic :
    let hall : Node :=
      { id := "hall", speaker := "Guard", text := "Down?",
        choices := [⟨"Yes.", some "cellar", none⟩] }
    let porch : Node :=
      { id := "porch", speaker := "Guard", text := "Up?",
        choices := [⟨"Yes.", some "attic", none⟩, ⟨"Run.", some "attic", none⟩,
          ⟨"No.", some "hall", none⟩] }
    ([porch, hall].map Node.id).Nodup ∧ [porch, hall].Perm [hall, porch] ∧
      ∃ graph graph', ofNodes [porch, hall] = .ok graph ∧ ofNodes [hall, porch] = .ok graph' ∧
        graph'.reachable "porch" = graph.reachable "porch" ∧
        graph'.danglingLinks =
          [("hall", "cellar"), ("porch", "attic"), ("porch", "attic")] := by
  intro hall porch
  have hnodup : ([porch, hall].map Node.id).Nodup := by decide
  have hperm : [porch, hall].Perm [hall, porch] := .swap _ _ _
  obtain ⟨graph, graph', hgraph, hgraph', -, -, hreachable, hlinks, -, hsorted⟩ :=
    order_of_nodes_unobservable hnodup hperm
  refine ⟨hnodup, hperm, graph, graph', hgraph, hgraph', hreachable "porch", ?_⟩
  rw [hlinks]
  refine (hsorted [hall, porch] _ hperm.symm ?_ (by decide)).symm
  cases hgraph
  decide

end Sidescroller.Story.Graph
