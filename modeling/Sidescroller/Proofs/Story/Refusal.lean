import Sidescroller.Proofs.Story.Session

/-!
# Operations that are refused

When an operation of a session fails, and what is left of the session then. Nothing is assumed of
the session: it may be on a node that the graph does not have, with a highlight that comes from
another graph.

* `Session.Astray` — the session is on no node of the graph, and the error that says so;
* `Session.start_error_iff`, `Session.choose_error_iff`, `Session.confirm_error_iff`,
  `Session.chooseNumeric_eq_none_iff`, `Session.cancel_eq_none_iff` — exactly when an operation is
  refused, and with which error;
* `Session.Untouched` — an operation that leaves the session as it was;
* `refused_iff_and_untouched` — all operations together.
-/

namespace Sidescroller.Story

namespace Session

variable {session : Session} {graph : Graph} {error : SessionError}

/-! ### The current node -/

/-- **Astray**: the session is on no node of the graph, and this error says why. -/
inductive Astray (graph : Graph) (session : Session) : SessionError → Prop
  /-- No conversation is open. -/
  | idle (hidle : session.cursor = .idle) : Astray graph session .notActive
  /-- The conversation is on a node that the graph does not have. -/
  | unknown {conversation : ConversationId} {id : String}
      (hactive : session.cursor = .active conversation id) (hget : graph.get? id = none) :
    Astray graph session (.unknownNode id)

theorem Astray.activeNode_eq (h : Astray graph session error) :
    session.activeNode graph = .error error := by
  unfold activeNode
  cases h with
  | idle hidle => rw [currentId?_of_idle hidle]
  | unknown hactive hget => simp only [currentId?_of_active hactive, hget]

theorem Astray.currentNode?_eq (h : Astray graph session error) :
    session.currentNode? graph = none := by
  unfold currentNode?
  cases h with
  | idle hidle => rw [currentId?_of_idle hidle, Option.bind_none]
  | unknown hactive hget => rw [currentId?_of_active hactive, Option.bind_some, hget]

/-- There is one reason for being astray. -/
theorem Astray.unique {other : SessionError} (h : Astray graph session error)
    (hother : Astray graph session other) : other = error :=
  Except.error.inj (hother.activeNode_eq.symm.trans h.activeNode_eq)

/-- A session is astray, or it is on a node of the graph. -/
theorem astray_or_on (session : Session) (graph : Graph) :
    (∃ error, Astray graph session error) ∨
      ∃ node, session.activeNode graph = .ok node ∧ session.currentNode? graph = some node := by
  cases hcursor : session.cursor with
  | idle => exact Or.inl ⟨_, .idle hcursor⟩
  | active conversation id =>
    cases hget : graph.get? id with
    | none => exact Or.inl ⟨_, .unknown hcursor hget⟩
    | some node =>
      refine Or.inr ⟨node, ?_, currentNode?_of_active hcursor hget⟩
      simp only [activeNode, currentId?_of_active hcursor, hget]

/-- What is known of astray sessions and of those on a node is known of all. -/
theorem iff_of_astray_of_on {answer : Prop} (astray : SessionError → Prop) (on : Node → Prop)
    (hastray : ∀ reason, Astray graph session reason → (answer ↔ astray reason))
    (hon : ∀ node, session.activeNode graph = .ok node →
      session.currentNode? graph = some node → (answer ↔ on node)) :
    answer ↔ (∃ reason, Astray graph session reason ∧ astray reason) ∨
      ∃ node, session.currentNode? graph = some node ∧ on node := by
  -- a session is either astray or on a node, so one of the two sides is never the case
  rcases session.astray_or_on graph with ⟨reason, h⟩ | ⟨node, hactive, hcurrent⟩
  · rw [hastray reason h]
    constructor
    · intro hreason
      exact Or.inl ⟨reason, h, hreason⟩
    · rintro (⟨other, hother, hreason⟩ | ⟨node, hnode, -⟩)
      · rwa [h.unique hother] at hreason
      · rw [h.currentNode?_eq] at hnode
        cases hnode
  · rw [hon node hactive hcurrent]
    constructor
    · intro hnode
      exact Or.inr ⟨node, hcurrent, hnode⟩
    · rintro (⟨reason, h, -⟩ | ⟨other, hother, hnode⟩)
      · rw [h.activeNode_eq] at hactive
        cases hactive
      · obtain rfl := Option.some.inj (hcurrent.symm.trans hother)
        exact hnode

/-! ### Exactly when an operation is refused -/

theorem start_error_iff {id : String} :
    (session.start graph id).2 = .error error ↔
      (∃ conversation current, session.cursor = .active conversation current ∧
        error = .alreadyActive current) ∨
      session.cursor = .idle ∧ graph.contains id = false ∧ error = .unknownNode id := by
  unfold start
  cases hcursor : session.cursor with
  | active conversation current =>
    rw [currentId?_of_active hcursor]
    constructor
    · intro h
      exact Or.inl ⟨conversation, current, rfl, (Except.error.inj h).symm⟩
    · rintro (⟨_, _, h, rfl⟩ | ⟨h, -⟩)
      · obtain ⟨-, rfl⟩ := Cursor.active.inj h
        rfl
      · cases h
  | idle =>
    rw [currentId?_of_idle hcursor]
    dsimp only
    split_ifs with hcontains
    · refine iff_of_false nofun ?_
      rintro (⟨_, _, h, -⟩ | ⟨-, h, -⟩)
      · cases h
      · exact Bool.false_ne_true (h.symm.trans hcontains)
    · constructor
      · intro h
        exact Or.inr ⟨rfl, Bool.not_eq_true _ ▸ hcontains, (Except.error.inj h).symm⟩
      · rintro (⟨_, _, h, -⟩ | ⟨-, -, rfl⟩)
        · cases h
        · rfl

/-- On a node, a choice is refused only if there is none at that position. -/
theorem choose_error_iff_of_on {node : Node} (h : session.activeNode graph = .ok node)
    {index : Nat} :
    (session.choose graph index).2 = .error error ↔
      node.choiceCount ≤ index ∧ error = .choiceOutOfRange index node.choiceCount := by
  unfold choose
  rw [h]
  dsimp only
  cases hchoice : node.choices[index]? with
  | none =>
    have hle : node.choiceCount ≤ index := List.getElem?_eq_none_iff.1 hchoice
    rw [Except.error.injEq, and_iff_right hle, eq_comm]
  | some choice =>
    have hlt : index < node.choiceCount := (List.getElem?_eq_some_iff.1 hchoice).1
    exact iff_of_false nofun fun h => absurd h.1 (Nat.not_le.2 hlt)

theorem choose_error_iff {index : Nat} :
    (session.choose graph index).2 = .error error ↔
      Astray graph session error ∨
      ∃ node, session.currentNode? graph = some node ∧ node.choiceCount ≤ index ∧
        error = .choiceOutOfRange index node.choiceCount := by
  rw [← exists_eq_right' (p := Astray graph session)]
  refine iff_of_astray_of_on (error = ·) _ ?_ ?_
  · intro reason h
    rw [choose, h.activeNode_eq, Except.error.injEq, eq_comm]
  · intro node h _
    exact choose_error_iff_of_on h

/-- A confirmation is refused only if there are choices, and none of them is highlighted. -/
theorem confirm_error_iff :
    (session.confirm graph).2 = .error error ↔
      Astray graph session error ∨
      ∃ node, session.currentNode? graph = some node ∧ node.choices ≠ [] ∧
        node.choiceCount ≤ session.selected ∧
        error = .choiceOutOfRange session.selected node.choiceCount := by
  rw [← exists_eq_right' (p := Astray graph session)]
  refine iff_of_astray_of_on (error = ·) _ ?_ ?_
  · intro reason h
    rw [confirm, h.activeNode_eq, Except.error.injEq, eq_comm]
  · intro node h _
    unfold confirm
    rw [h]
    dsimp only
    split_ifs with hleaf
    · -- a node without choices is dismissed
      exact iff_of_false nofun fun hnode => hnode.1 (List.isEmpty_iff.1 hleaf)
    · rw [choose_error_iff_of_on h]
      exact (and_iff_right fun hnil => hleaf (List.isEmpty_iff.2 hnil)).symm

theorem chooseNumeric_eq_none_iff {key : UInt8} :
    (session.chooseNumeric graph key).2 = none ↔
      (∃ error, Astray graph session error) ∨
      ∃ node, session.currentNode? graph = some node ∧
        ¬ (1 ≤ key.toNat ∧ key.toNat ≤ node.choiceCount) := by
  have h := @iff_of_astray_of_on session graph ((session.chooseNumeric graph key).2 = none)
    (fun _ => True) (fun node => ¬ (1 ≤ key.toNat ∧ key.toNat ≤ node.choiceCount)) ?_ ?_
  · simpa only [and_true] using h
  · intro reason h
    rw [chooseNumeric, h.currentNode?_eq]
    exact iff_of_true rfl trivial
  · intro node h hcurrent
    unfold chooseNumeric
    rw [hcurrent]
    dsimp only
    split_ifs with hkey
    · refine iff_of_false ?_ (not_not_intro hkey)
      -- the choice that the key numbers is there
      cases hchoose : (session.choose graph (key.toNat - 1)).2 with
      | error error =>
        have hrange := (choose_error_iff_of_on h).1 hchoose
        omega
      | ok departure => exact nofun
    · exact iff_of_true rfl hkey

theorem cancel_eq_none_iff : session.cancel.2 = none ↔ session.cursor = .idle := by
  rcases session.cancel_cases with ⟨hidle, h⟩ | ⟨conversation, node, hactive, h⟩
  · rw [h]
    exact iff_of_true rfl hidle
  · rw [h, hactive]
    exact iff_of_false nofun nofun

/-! ### What is left of the session -/

/-- **Untouched**: the operation leaves the session as it was, in all of its fields, and when it is
called again it gives the same answer. -/
def Untouched {α : Type} (operation : Session → Session × α) (session : Session) : Prop :=
  (operation session).1 = session ∧ operation (operation session).1 = operation session

theorem untouched_of_fst_eq {α : Type} {operation : Session → Session × α}
    (h : (operation session).1 = session) : Untouched operation session :=
  ⟨h, congrArg operation h⟩

theorem start_untouched {id : String} (h : (session.start graph id).2 = .error error) :
    Untouched (·.start graph id) session := by
  apply untouched_of_fst_eq
  rcases session.start_cases graph id with ⟨_, hcase⟩ | ⟨-, -, hcase⟩
  · rw [hcase]
  · rw [hcase] at h
    cases h

theorem choose_untouched {index : Nat} (h : (session.choose graph index).2 = .error error) :
    Untouched (·.choose graph index) session := by
  apply untouched_of_fst_eq
  rcases session.choose_cases graph index with ⟨_, hcase⟩ | ⟨_, _, _, _, _, hcase, -⟩
  · rw [hcase]
  · rw [hcase] at h
    cases h

theorem confirm_untouched (h : (session.confirm graph).2 = .error error) :
    Untouched (·.confirm graph) session := by
  apply untouched_of_fst_eq
  rcases session.confirm_cases graph with ⟨_, hcase⟩ | ⟨_, _, _, _, _, hcase, -⟩
  · rw [hcase]
  · rw [hcase] at h
    cases h

theorem chooseNumeric_untouched {key : UInt8} (h : (session.chooseNumeric graph key).2 = none) :
    Untouched (·.chooseNumeric graph key) session := by
  apply untouched_of_fst_eq
  rcases session.chooseNumeric_cases graph key with hcase | ⟨_, _, _, _, _, hcase, -⟩
  · rw [hcase]
  · rw [hcase] at h
    cases h

theorem cancel_untouched (h : session.cancel.2 = none) : Untouched (·.cancel) session := by
  apply untouched_of_fst_eq
  rcases session.cancel_cases with ⟨-, hcase⟩ | ⟨_, _, -, hcase⟩
  · rw [hcase]
  · rw [hcase] at h
    cases h

end Session

/-- **Refused operations change nothing.** For any session and any graph: a conversation cannot be
opened while one is open, or on an id that the graph does not have; a choice cannot be taken, and
the highlighted one cannot be confirmed, while the session is astray, or if there is no such choice;
a number key does nothing then, and there is nothing to leave while no conversation is open. These
are all the failures. Every one of them leaves the session as it was, and happens again when the
operation is tried again. -/
theorem refused_iff_and_untouched (session : Session) (graph : Graph) :
    (∀ id error, (session.start graph id).2 = .error error ↔
      (∃ conversation current, session.cursor = .active conversation current ∧
        error = .alreadyActive current) ∨
      session.cursor = .idle ∧ graph.contains id = false ∧ error = .unknownNode id) ∧
    (∀ index error, (session.choose graph index).2 = .error error ↔
      session.Astray graph error ∨
      ∃ node, session.currentNode? graph = some node ∧ node.choiceCount ≤ index ∧
        error = .choiceOutOfRange index node.choiceCount) ∧
    (∀ error, (session.confirm graph).2 = .error error ↔
      session.Astray graph error ∨
      ∃ node, session.currentNode? graph = some node ∧ node.choices ≠ [] ∧
        node.choiceCount ≤ session.selected ∧
        error = .choiceOutOfRange session.selected node.choiceCount) ∧
    (∀ key, (session.chooseNumeric graph key).2 = none ↔
      (∃ error, session.Astray graph error) ∨
      ∃ node, session.currentNode? graph = some node ∧
        ¬ (1 ≤ key.toNat ∧ key.toNat ≤ node.choiceCount)) ∧
    (session.cancel.2 = none ↔ session.cursor = .idle) ∧
    (∀ id error, (session.start graph id).2 = .error error →
      session.Untouched (·.start graph id)) ∧
    (∀ index error, (session.choose graph index).2 = .error error →
      session.Untouched (·.choose graph index)) ∧
    (∀ error, (session.confirm graph).2 = .error error → session.Untouched (·.confirm graph)) ∧
    (∀ key, (session.chooseNumeric graph key).2 = none →
      session.Untouched (·.chooseNumeric graph key)) ∧
    (session.cancel.2 = none → session.Untouched (·.cancel)) := by
  refine ⟨?_, ?_, ?_, ?_, Session.cancel_eq_none_iff, ?_, ?_, ?_, ?_, Session.cancel_untouched⟩
  · exact fun _ _ => Session.start_error_iff
  · exact fun _ _ => Session.choose_error_iff
  · exact fun _ => Session.confirm_error_iff
  · exact fun _ => Session.chooseNumeric_eq_none_iff
  · exact fun _ _ => Session.start_untouched
  · exact fun _ _ => Session.choose_untouched
  · exact fun _ => Session.confirm_untouched
  · exact fun _ => Session.chooseNumeric_untouched

end Sidescroller.Story
