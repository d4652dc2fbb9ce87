import Sidescroller.Proofs.Story.Cursor

/-!
# The ways of taking a choice

A choice can be taken by its position, by its number key, and by moving the highlight to it and
confirming. On the way the highlight is all that changes, and it is forgotten when the node is left:
the session goes on with the first choice highlighted. So the three ways have one outcome.

* `Session.nudge` — the highlight, moved step by step;
* `Session.selected_nudge_straight` — the steps that lead straight to a choice lead there;
* `Session.choose_withSelected` — what was highlighted is forgotten;
* `Session.confirm_nudge` — to confirm after some steps is to take the choice that they lead to.
-/

namespace Sidescroller.Story

/-- One step of the highlight. -/
inductive Nudge where
  | up
  | down
  deriving DecidableEq

namespace Nudge

/-- The step as a number of places. -/
def delta : Nudge → Int
  | up => -1
  | down => 1

/-- The steps that lead straight from one position to another. -/
def straight (source target : Nat) : List Nudge :=
  if source ≤ target then List.replicate (target - source) down
  else List.replicate (source - target) up

end Nudge

namespace Session

variable {session : Session} {graph : Graph} {conversation : ConversationId} {node : Node}

/-- **The highlight, moved step by step.** -/
def nudge (session : Session) (graph : Graph) (nudges : List Nudge) : Session :=
  nudges.foldl (fun session nudge => session.moveSelection graph nudge.delta) session

theorem nudge_cons (session : Session) (graph : Graph) (nudge : Nudge) (rest : List Nudge) :
    session.nudge graph (nudge :: rest) =
      (session.moveSelection graph nudge.delta).nudge graph rest := rfl

/-- Only the highlight moves. -/
theorem nudge_eq (session : Session) (graph : Graph) (nudges : List Nudge) :
    ∃ selected, session.nudge graph nudges = { session with selected } := by
  induction nudges generalizing session with
  | nil => exact ⟨session.selected, rfl⟩
  | cons nudge rest ih =>
    obtain ⟨first, hfirst⟩ := session.moveSelection_eq graph nudge.delta
    obtain ⟨last, hlast⟩ := ih { session with selected := first }
    refine ⟨last, ?_⟩
    rw [nudge_cons, hfirst, hlast]

/-! ### Where steps lead -/

section Steps

variable (hcurrent : session.currentNode? graph = some node)

include hcurrent

theorem currentNode?_moveSelection (delta : Int) :
    (session.moveSelection graph delta).currentNode? graph = some node := by
  obtain ⟨selected, h⟩ := session.moveSelection_eq graph delta
  rw [h]
  exact hcurrent

/-- Steps down lead down, as far as there are choices. -/
theorem selected_nudge_down {n : Nat} (h : session.selected + n < node.choiceCount) :
    (session.nudge graph (List.replicate n .down)).selected = session.selected + n := by
  -- the first step stays within the choices, and leaves the session on its node
  induction n generalizing session with
  | zero => rfl
  | succ n ih =>
    have hmoved := selected_moveSelection hcurrent (by omega) Nudge.down.delta
    have hstep :
        (session.moveSelection graph Nudge.down.delta).selected = session.selected + 1 := by
      have hdelta : Nudge.down.delta = 1 := rfl
      omega
    rw [List.replicate_succ, nudge_cons, ih (currentNode?_moveSelection hcurrent _) (by omega),
      hstep]
    omega

/-- Steps up lead up, as far as the first choice. -/
theorem selected_nudge_up {n : Nat} (hlt : session.selected < node.choiceCount)
    (h : n ≤ session.selected) :
    (session.nudge graph (List.replicate n .up)).selected = session.selected - n := by
  induction n generalizing session with
  | zero => rfl
  | succ n ih =>
    have hmoved := selected_moveSelection hcurrent (by omega) Nudge.up.delta
    have hstep : (session.moveSelection graph Nudge.up.delta).selected = session.selected - 1 := by
      have hdelta : Nudge.up.delta = -1 := rfl
      omega
    rw [List.replicate_succ, nudge_cons,
      ih (currentNode?_moveSelection hcurrent _) (by omega) (by omega), hstep]
    omega

/-- **The straight way to a choice leads there.** -/
theorem selected_nudge_straight {target : Nat} (hlt : session.selected < node.choiceCount)
    (htarget : target < node.choiceCount) :
    (session.nudge graph (Nudge.straight session.selected target)).selected = target := by
  unfold Nudge.straight
  split_ifs with hle
  · rw [selected_nudge_down hcurrent (by omega)]
    omega
  · rw [selected_nudge_up hcurrent hlt (by omega)]
    omega

end Steps

/-! ### One outcome -/

theorem gain_withSelected (session : Session) (selected : Nat) (item : Option String) :
    { session with selected }.gain item =
      ({ (session.gain item).1 with selected }, (session.gain item).2) := by
  cases item with
  | none => rfl
  | some item => rfl

theorem complete_withSelected (session : Session) (selected : Nat) (node : Node) :
    { session with selected }.complete node =
      ({ (session.complete node).1 with selected }, (session.complete node).2) := by
  have hknown : hasCompleted { session with selected } node.id = session.hasCompleted node.id := rfl
  unfold complete
  rw [hknown, gain_withSelected]
  split_ifs
  · rfl
  · rfl

theorem close_withSelected (session : Session) (selected : Nat) (lastNode : String)
    (reason : EndReason) :
    { session with selected }.close lastNode reason = session.close lastNode reason := by
  have hsame : conversation? { session with selected } = session.conversation? := rfl
  unfold close
  rw [hsame]
  cases session.conversation? with
  | none => rfl
  | some conversation => rfl

/-- Wherever a session goes from a node, it highlights the first choice there. -/
theorem follow_withSelected (session : Session) (selected : Nat) (next : Option String) :
    { session with selected }.follow graph node next = session.follow graph node next := by
  unfold follow
  simp only [close_withSelected]
  rfl

section Outcome

variable (hactive : session.cursor = .active conversation node.id)
  (hget : graph.get? node.id = some node)

include hactive hget

/-- **What was highlighted is forgotten** when a choice is taken. -/
theorem choose_withSelected {index : Nat} (hindex : index < node.choices.length)
    (selected : Nat) :
    { session with selected }.choose graph index = session.choose graph index := by
  have hsame : activeNode { session with selected } graph = session.activeNode graph := rfl
  unfold choose
  rw [hsame, activeNode_of_active hactive hget]
  -- completing and gaining hand the highlight on, and going on from the node drops it
  simp only [List.getElem?_eq_getElem hindex, complete_withSelected, gain_withSelected,
    follow_withSelected]

/-- A node that has choices is left by the highlighted one. -/
theorem confirm_eq_choose (hpos : 0 < node.choiceCount) :
    session.confirm graph = session.choose graph session.selected := by
  unfold confirm
  rw [activeNode_of_active hactive hget]
  exact if_neg (Node.not_isLeaf_of_pos hpos)

/-- **To confirm after some steps** is to take the choice that they lead to. -/
theorem confirm_nudge {nudges : List Nudge} {index : Nat} (hindex : index < node.choiceCount)
    (hnudges : (session.nudge graph nudges).selected = index) :
    (session.nudge graph nudges).confirm graph = session.choose graph index := by
  obtain ⟨selected, h⟩ := session.nudge_eq graph nudges
  rw [h] at hnudges ⊢
  obtain rfl : selected = index := hnudges
  have hactive' : cursor { session with selected } = .active conversation node.id := hactive
  calc confirm { session with selected } graph
      = choose { session with selected } graph selected :=
        confirm_eq_choose hactive' hget (Nat.zero_lt_of_lt hindex)
    _ = session.choose graph selected := choose_withSelected hactive hget hindex selected

/-- **A number key** takes the choice of that number, counted from one. -/
theorem chooseNumeric_of_choose {key : UInt8} {session' : Session} {departure : Departure}
    (hpos : 1 ≤ key.toNat) (hle : key.toNat ≤ node.choiceCount)
    (hchoose : session.choose graph (key.toNat - 1) = (session', .ok departure)) :
    session.chooseNumeric graph key = (session', some departure) := by
  unfold chooseNumeric
  rw [currentNode?_of_active hactive hget]
  dsimp only
  rw [if_pos ⟨hpos, hle⟩, hchoose]
  rfl

end Outcome

end Session

end Sidescroller.Story
