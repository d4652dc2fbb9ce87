import Mathlib.Data.List.Perm.Subperm
import Sidescroller.Proofs.Story.Cursor
import Sidescroller.Proofs.Story.Search
import Sidescroller.Proofs.Story.Trail

/-!
# Conversations without cycles end

Where no cycle of links can be reached, a conversation never comes to a node twice. So it cannot be
on more nodes than can be reached, and every departure takes it to another one or ends it. Nothing
in a session counts the steps; what bounds them is the trail.

* `Graph.AcyclicFrom` — no cycle can be reached from a start; `Graph.acyclicFrom_of_rank` — how to
  see it;
* `Graph.Trail.nodup`, `Graph.Trail.length_le` — trails are short then;
* `Operation.LeavesOn` — operations that leave nodes of one graph only;
* `Paced` — the trail of a conversation has a node for each departure; `Paced.perform`, `Paced.play`
  — every operation, and so every run, keeps it that way;
* `Paced.count_lt` — so a conversation is left a bounded number of times;
* `Paced.idle_of_confirms` — and confirming again and again ends it.
-/

namespace Sidescroller.Story

/-! ### Graphs without cycles -/

namespace Graph

variable {graph : Graph} {start : String} {trail : List String}

/-- **No cycle can be reached** from the start: on any node that a path leads to, the only path back
to it is the one without a link. -/
def AcyclicFrom (graph : Graph) (start : String) : Prop :=
  ∀ id path loop, graph.Path start id path → graph.Path id id loop → loop = [id]

/-- There is no cycle where a rank falls along every link between nodes. -/
theorem acyclicFrom_of_rank (rank : String → Nat)
    (h : ∀ node ∈ graph.nodes, ∀ target ∈ node.targets, graph.contains target = true →
      rank target < rank node.id) (start : String) : graph.AcyclicFrom start := by
  have hfalls : ∀ first last path, graph.Path first last path →
      path = [first] ∨ rank last < rank first := by
    intro first last path hpath
    -- along the path, from its end
    induction path using List.reverseRecOn generalizing last with
    | nil => cases hpath.getLast?_eq
    | append_singleton before last' ih =>
      rcases hpath.cases_last with
        ⟨hsingle, -⟩ | ⟨source, before', heq, hbefore, ⟨node, hnode, htarget⟩⟩
      · exact Or.inl hsingle
      · obtain ⟨rfl, -⟩ := List.append_inj' heq rfl
        obtain rfl := id_of_get? hnode
        have hlink := h node (List.mem_of_find?_eq_some hnode) last htarget
          (hpath.contains last (List.mem_of_getLast? hpath.getLast?_eq))
        rcases ih node.id hbefore with hsingle | hlt
        · rw [hsingle] at hbefore
          obtain rfl := Option.some.inj hbefore.getLast?_eq
          exact Or.inr hlink
        · exact Or.inr (hlink.trans hlt)
  intro id path loop _ hloop
  exact (hfalls id id loop hloop).resolve_right (Nat.lt_irrefl _)

/-- A node that is listed has a path to it. -/
theorem Lists.exists_path {id : String} (h : graph.Lists start id) :
    ∃ path, graph.Path start id path := by
  obtain ⟨node, hnode, rfl⟩ := lists_iff.1 h
  exact exists_path_of_reaches hnode

theorem Lists.contains {id : String} (h : graph.Lists start id) : graph.contains id = true := by
  obtain ⟨node, hnode, rfl⟩ := lists_iff.1 h
  exact contains_of_get? hnode.get?_eq

/-- **A trail comes to no node twice.** -/
theorem Trail.nodup (hacyclic : graph.AcyclicFrom start) (h : graph.Trail start trail) :
    trail.Nodup := by
  obtain ⟨⟨-, hlinks⟩, hlisted⟩ := h
  -- any part of the trail does, wherever it begins
  induction trail with
  | nil => exact List.nodup_nil
  | cons id rest ih =>
    rw [List.nodup_cons]
    refine ⟨?_, ih (fun other hother => hlisted other (List.mem_cons_of_mem _ hother)) hlinks.tail⟩
    intro hid
    obtain ⟨between, after, rfl⟩ := List.append_of_mem hid
    -- from its first place the trail leads back to its second one
    have hpart : id :: (between ++ [id]) <+: id :: (between ++ id :: after) :=
      ⟨after, by simp⟩
    obtain ⟨path, hpath⟩ := (hlisted id List.mem_cons_self).exists_path
    have hloop : graph.Path id id (id :: (between ++ [id])) :=
      { walk := ⟨rfl, hlinks.prefix hpart⟩
        contains := fun other hother => (hlisted other (hpart.subset hother)).contains
        getLast?_eq := by rw [← List.cons_append, List.getLast?_concat] }
    have hlength := congrArg List.length (hacyclic id path _ hpath hloop)
    simp at hlength

/-- **A trail is no longer than the list of what can be reached.** -/
theorem Trail.length_le (hacyclic : graph.AcyclicFrom start) (h : graph.Trail start trail) :
    trail.length ≤ (graph.reachable start).length := by
  have hsubperm := List.subperm_of_subset (h.nodup hacyclic) h.listed
  calc trail.length
    _ ≤ ((graph.reachable start).map Node.id).length := hsubperm.length_le
    _ = (graph.reachable start).length := List.length_map ..

end Graph

/-! ### Departures of a conversation -/

variable {graph : Graph} {start id : String} {conversation : ConversationId}
  {session session' : Session} {count : Nat}

/-- The log grows by one node for each departure. -/
theorem Operation.length_completed_perform (session : Session) (operation : Operation) :
    (operation.perform session).1.completed.length =
      session.completed.length + (operation.perform session).2.toList.length := by
  rcases operation.perform_cases session with
    ⟨hnone, hcompleted, -⟩ | ⟨_, _, _, _, session', departure, hperform, -, -, -, hleaves⟩
  · rw [hnone, hcompleted]
    rfl
  · rw [hperform, hleaves.completed_eq, List.length_append]
    rfl

/-- The operation can leave nodes of that graph only. The highlight may be moved on any graph, where
it may well get out of range. -/
def Operation.LeavesOn (graph : Graph) (operation : Operation) : Prop :=
  operation.On graph ∨ ∃ other delta, operation = .moveSelection other delta

/-- **A conversation that is open after a move** was open before, and what the move adds to the log
is pending. -/
theorem Session.Moves.of_open {notice : Option Notice} (h : Moves graph session session' notice)
    (hlt : conversation.number < session.nextConversation)
    (hactive : session'.cursor = .active conversation id) :
    ∃ before, session.cursor = .active conversation before ∧
      session'.completed.length + session.pending.length =
        session.completed.length + session'.pending.length := by
  cases h with
  | stays => exact ⟨id, hactive, rfl⟩
  | opens hidle hnode =>
    -- what is opened is another conversation
    obtain ⟨rfl, -⟩ := Cursor.active.inj hactive
    exact absurd hlt (Nat.lt_irrefl _)
  | highlights hcursor hget hlt => exact ⟨id, hactive, rfl⟩
  | @continues _ node _ _ _ _ hleaves hchoice hnext =>
    obtain ⟨-, -, hcursor, hpending⟩ := hleaves.of_continued hnext
    obtain ⟨rfl, -⟩ := Cursor.active.inj (hcursor.symm.trans hactive)
    refine ⟨node.id, hleaves.cursor_eq, ?_⟩
    rw [hleaves.completed_eq, hpending, List.length_append, List.length_append]
    omega
  | ends hleaves hchoice hending =>
    obtain ⟨reason, -, -, hcursor, -⟩ := hleaves.of_ended hending
    cases hcursor.symm.trans hactive
  | cancels hcursor => cases hactive

/-- **A conversation under way, and the number of departures** since it was opened: while it is
open, every one of them has left a node that is pending. -/
structure Paced (graph : Graph) (start : String) (conversation : ConversationId) (session : Session)
    (count : Nat) : Prop extends Underway graph start conversation session where
  length_eq : ∀ id, session.cursor = .active conversation id → session.pending.length = count

namespace Paced

theorem opened (h : (session.start graph start).2 = .ok conversation) :
    Paced graph start conversation (session.start graph start).1 0 where
  toUnderway := .opened h
  length_eq := by
    intro id hactive
    rcases session.start_cases graph start with ⟨error, hcase⟩ | ⟨-, -, hcase⟩
    · rw [hcase] at h
      cases h
    · rw [hcase]
      rfl

/-- **One move** goes on with the number, by what it adds to the log. -/
theorem moves (h : Paced graph start conversation session count) {notice : Option Notice}
    (hmove : Session.Moves graph session session' notice) {added : Nat}
    (hlog : session'.completed.length = session.completed.length + added) :
    Paced graph start conversation session' (count + added) where
  toUnderway := h.toUnderway.moves hmove
  length_eq := by
    intro id hactive
    obtain ⟨before, hbefore, hgrown⟩ := hmove.of_open h.number_lt hactive
    have hlength := h.length_eq before hbefore
    omega

/-- The highlight does not count. -/
theorem highlight (h : Paced graph start conversation session count) (selected : Nat) :
    Paced graph start conversation { session with selected } count where
  number_lt := h.number_lt
  trail := h.trail
  length_eq := h.length_eq

/-- **One operation** goes on with the number. -/
theorem perform (h : Paced graph start conversation session count) {operation : Operation}
    (hon : operation.LeavesOn graph) :
    Paced graph start conversation (operation.perform session).1
      (count + (operation.perform session).2.toList.length) := by
  rcases hon with hon | ⟨other, delta, rfl⟩
  · exact h.moves (operation.moves session hon) (operation.length_completed_perform session)
  · obtain ⟨selected, hselected⟩ := session.moveSelection_eq other delta
    rw [Operation.perform, hselected]
    exact h.highlight selected

/-- **A run of operations** goes on with the number. -/
theorem play (h : Paced graph start conversation session count) {operations : List Operation}
    (hon : ∀ operation ∈ operations, operation.LeavesOn graph) :
    Paced graph start conversation (Operation.play session operations).1
      (count + (Operation.play session operations).2.length) := by
  induction operations generalizing session count with
  | nil => exact h
  | cons operation rest ih =>
    rw [List.forall_mem_cons] at hon
    have hrest := ih (h.perform hon.1) hon.2
    rw [Nat.add_assoc, ← List.length_append] at hrest
    exact hrest

/-- **There are fewer departures than nodes** that can be reached. -/
theorem count_lt (h : Paced graph start conversation session count)
    (hacyclic : graph.AcyclicFrom start) (hactive : session.cursor = .active conversation id) :
    count < (graph.reachable start).length := by
  have hlength := (h.trail id hactive).length_le hacyclic
  rw [List.length_append, h.length_eq id hactive] at hlength
  exact hlength

end Paced

/-! ### Confirming again and again -/

namespace Session

/-- Nothing can be confirmed without a conversation. -/
theorem confirms_of_idle (hidle : session.cursor = .idle) (n : Nat) :
    Operation.play session (List.replicate n (.confirm graph)) = (session, []) := by
  have hconfirm : session.confirm graph = (session, .error .notActive) := by
    rw [Session.confirm, activeNode, currentId?_of_idle hidle]
  induction n with
  | zero => rfl
  | succ n ih =>
    rw [List.replicate_succ, Operation.play, Operation.perform, hconfirm]
    dsimp only
    rw [ih]
    rfl

/-- **Every confirmation leaves a node**, until the conversation ends. -/
theorem confirms_cases (h : session.Placed graph)
    (hactive : session.cursor = .active conversation id) (n : Nat) :
    let played := Operation.play session (List.replicate n (.confirm graph))
    played.1.cursor = .idle ∨
      ∃ id, played.1.cursor = .active conversation id ∧ played.2.length = n := by
  induction n generalizing session id with
  | zero => exact Or.inr ⟨id, hactive, rfl⟩
  | succ n ih =>
    obtain ⟨node, choice, session', departure, hok, -, -, hleaves⟩ := h.confirm_leaves hactive
    have hplay : Operation.play session (List.replicate (n + 1) (.confirm graph)) =
        ((Operation.play session' (List.replicate n (.confirm graph))).1,
          departure :: (Operation.play session' (List.replicate n (.confirm graph))).2) := by
      rw [List.replicate_succ, Operation.play, Operation.perform, hok]
      rfl
    rw [hplay]
    rcases hleaves.goes with ⟨next, -, hnode, -, hcursor, -⟩ | ⟨reason, -, -, hcursor, -⟩
    · -- the next node is entered on its first choice
      have hplaced : session'.Placed graph := .of_entered hcursor hnode hleaves.selected_eq
      rcases ih hplaced hcursor with hidle | ⟨id', hactive', hlength⟩
      · exact Or.inl hidle
      · exact Or.inr ⟨id', hactive', congrArg Nat.succ hlength⟩
    · rw [confirms_of_idle hcursor]
      exact Or.inl hcursor

end Session

/-- **Confirming ends the conversation** by the time that it has been left as often as there are
nodes to be reached. -/
theorem Paced.idle_of_confirms (h : Paced graph start conversation session count)
    (hacyclic : graph.AcyclicFrom start) (hplaced : session.Placed graph)
    (hactive : session.cursor = .active conversation id) {n : Nat}
    (hle : (graph.reachable start).length ≤ count + n) :
    (Operation.play session (List.replicate n (.confirm graph))).1.cursor = .idle := by
  have hon : ∀ operation ∈ List.replicate n (Operation.confirm graph),
      operation.LeavesOn graph := by
    intro operation hoperation
    obtain rfl := List.eq_of_mem_replicate hoperation
    exact Or.inl fun other hother => (Option.some.inj hother).symm
  rcases Session.confirms_cases hplaced hactive n with hended | ⟨last, hlast, hlength⟩
  · exact hended
  · -- otherwise it has been left once more for each confirmation
    have hlt := (h.play hon).count_lt hacyclic hlast
    omega

end Sidescroller.Story
