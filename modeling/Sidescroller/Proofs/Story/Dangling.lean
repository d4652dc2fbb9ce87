import Sidescroller.Proofs.Story.Trail

/-!
# Where conversations break off

A choice may lead to an id that no node has. Nothing keeps such a choice from being taken, and then
the conversation breaks off. Whether a graph has such choices can be found out without any
conversation: `Graph.danglingLinks` lists them. Both look the target up, the list once for all and
the session whenever a choice is taken, and they find the same.

* `Graph.mem_danglingLinks_iff` — what is listed: the links whose target no node has;
* `Session.Leaves.dangling_of_ended` — a conversation that breaks off has followed one of them;
* `Operation.dangling_of_mem_notices` — so it is in every run of a session;
* `Graph.Breaks`, `Graph.breaks_of_mem_danglingLinks` — and each of them breaks a conversation off.
-/

namespace Sidescroller.Story

/-! ### What is listed -/

namespace Graph

variable {graph : Graph} {node : Node} {source target : String}

theorem mem_danglingFrom_iff :
    (source, target) ∈ graph.danglingFrom node ↔
      node.id = source ∧ target ∈ node.targets ∧ graph.contains target = false := by
  unfold danglingFrom
  simp only [List.mem_map, List.mem_filter, Prod.mk.injEq, Bool.not_eq_true']
  constructor
  · rintro ⟨other, ⟨hmem, hmissing⟩, hsource, rfl⟩
    exact ⟨hsource, hmem, hmissing⟩
  · rintro ⟨hsource, hmem, hmissing⟩
    exact ⟨target, ⟨hmem, hmissing⟩, hsource, rfl⟩

/-- **The dangling links** are the links whose target no node has. -/
theorem mem_danglingLinks_iff :
    (source, target) ∈ graph.danglingLinks ↔
      graph.Link source target ∧ graph.contains target = false := by
  unfold danglingLinks
  rw [List.mem_mergeSort, List.mem_flatMap]
  constructor
  · rintro ⟨node, hnode, hlink⟩
    obtain ⟨rfl, htarget, hmissing⟩ := mem_danglingFrom_iff.1 hlink
    exact ⟨⟨node, get?_of_mem hnode, htarget⟩, hmissing⟩
  · rintro ⟨⟨node, hget, htarget⟩, hmissing⟩
    exact ⟨node, List.mem_of_find?_eq_some hget,
      mem_danglingFrom_iff.2 ⟨id_of_get? hget, htarget, hmissing⟩⟩

end Graph

/-! ### Conversations that break off -/

variable {graph : Graph} {session session' : Session} {ending : Ending} {missing : String}

/-- **A conversation breaks off** only at a dangling link of its last node. -/
theorem Session.Leaves.dangling_of_ended {conversation : ConversationId} {node : Node}
    {choice : Option Choice} {departure : Departure}
    (h : Leaves graph session conversation node choice session' departure)
    (hchoice : ∀ taken, choice = some taken → taken ∈ node.choices)
    (hending : departure.transition = .ended ending)
    (hreason : ending.reason = .brokenReference missing) :
    (ending.lastNode, missing) ∈ graph.danglingLinks := by
  rw [Graph.mem_danglingLinks_iff]
  rcases h.goes with ⟨next, -, -, htransition, -⟩ | ⟨reason, hwhy, htransition, -⟩
  · cases htransition.symm.trans hending
  · obtain rfl := Transition.ended.inj (htransition.symm.trans hending)
    -- the reason tells what the choice was linked to
    rcases hwhy with ⟨-, hterminal⟩ | ⟨target, hlink, hmissing, hbroken⟩
    · cases hterminal.symm.trans hreason
    · obtain rfl := EndReason.brokenReference.inj (hbroken.symm.trans hreason)
      exact ⟨h.link hchoice hlink, hmissing⟩

theorem Session.Moves.dangling_of_ended (h : Moves graph session session' (some (.ended ending)))
    (hreason : ending.reason = .brokenReference missing) :
    (ending.lastNode, missing) ∈ graph.danglingLinks := by
  generalize hnotice : some (Notice.ended ending) = notice at h
  cases h with
  | ends hleaves hchoice hending =>
    obtain rfl := Notice.ended.inj (Option.some.inj hnotice)
    exact hleaves.dangling_of_ended hchoice hending hreason
  | cancels hactive =>
    obtain rfl := Notice.ended.inj (Option.some.inj hnotice)
    cases hreason
  | _ => cases hnotice

/-- **In every run of a session** conversations break off only at dangling links. -/
theorem Operation.dangling_of_mem_notices {operations : List Operation}
    (hon : ∀ operation ∈ operations, operation.On graph)
    (h : .ended ending ∈ notices session operations)
    (hreason : ending.reason = .brokenReference missing) :
    (ending.lastNode, missing) ∈ graph.danglingLinks := by
  induction operations generalizing session with
  | nil => cases h
  | cons operation rest ih =>
    rw [List.forall_mem_cons] at hon
    rcases List.mem_append.1 h with hfirst | hrest
    · have hmove := operation.moves session hon.1
      rw [Option.mem_toList.1 hfirst] at hmove
      exact hmove.dangling_of_ended hreason
    · exact ih hon.2 hrest

/-- **A choice that breaks a conversation off**: whenever a session is on `source`, one and the same
choice of the node ends its conversation there, and reports that `missing` is missing. -/
def Graph.Breaks (graph : Graph) (source missing : String) : Prop :=
  ∃ index, ∀ (session : Session) (conversation : ConversationId),
    session.cursor = .active conversation source →
    ∃ session' departure, session.choose graph index = (session', .ok departure) ∧
      departure.transition =
        .ended ⟨conversation, source, session.pending ++ [source], .brokenReference missing⟩ ∧
      session'.cursor = .idle

/-- **Every dangling link** breaks a conversation off. -/
theorem Graph.breaks_of_mem_danglingLinks {source : String}
    (h : (source, missing) ∈ graph.danglingLinks) : graph.Breaks source missing := by
  obtain ⟨⟨node, hget, htarget⟩, hmissing⟩ := mem_danglingLinks_iff.1 h
  obtain rfl := id_of_get? hget
  -- the position of the choice is a matter of the node, not of the session
  obtain ⟨choice, hmem, hnext⟩ := List.mem_filterMap.1 htarget
  obtain ⟨index, hindex⟩ := List.mem_iff_getElem?.1 hmem
  refine ⟨index, ?_⟩
  intro session conversation hactive
  obtain ⟨session', departure, hchoose, hleaves⟩ := Session.choose_leaves hactive hget hindex
  rcases hleaves.goes with ⟨next, hlink, hnode, -⟩ | ⟨reason, hwhy, htransition, hidle, -⟩
  · obtain rfl := Option.some.inj (hlink.symm.trans hnext)
    cases hnode.symm.trans hmissing
  · rcases hwhy with ⟨hnone, -⟩ | ⟨other, hother, -, rfl⟩
    · cases hnone.symm.trans hnext
    · obtain rfl := Option.some.inj (hother.symm.trans hnext)
      exact ⟨session', departure, hchoose, htransition, hidle⟩

end Sidescroller.Story
