import Mathlib.Algebra.Group.Nat.Defs
import Sidescroller.Proofs.Story.Conversation
import Sidescroller.Proofs.Story.Reach
import Sidescroller.Proofs.Story.Refusal

/-!
# Where a session can be

On one graph, operations never lose their place. An idle session has nothing highlighted and nothing
pending; in a conversation the current node is one of the graph, and the highlight is on one of its
choices. The highlight is set back whenever the cursor moves, so it never outlives its node.

* `Session.Placed` — this invariant;
* `Session.Placed.moves`, `Session.Placed.play` — every operation, and so every run, keeps it;
* `toNat_shiftedWord` — under it the highlight can be computed in machine words;
* `placed_of_play` — what it means for a session from the start: there always is a way on.
-/

namespace Sidescroller.Story

/-! ### The invariant -/

/-- **The cursor is well placed** for a graph. -/
structure Session.Placed (graph : Graph) (session : Session) : Prop where
  /-- Without a conversation nothing is highlighted, and nothing pending. -/
  idle : session.cursor = .idle → session.selected = 0 ∧ session.pending = []
  /-- In a conversation a choice is highlighted, if there is any. -/
  active : ∀ conversation id, session.cursor = .active conversation id →
    ∃ node, graph.get? id = some node ∧
      (session.selected < node.choiceCount ∨ node.choiceCount = 0 ∧ session.selected = 0)

namespace Session.Placed

variable {session session' : Session} {graph : Graph}

theorem fresh (graph : Graph) : Session.fresh.Placed graph where
  idle := fun _ => ⟨rfl, rfl⟩
  active := nofun

/-- The first choice is highlighted when a node is entered. -/
theorem of_entered {conversation : ConversationId} {id : String}
    (hactive : session.cursor = .active conversation id) (hnode : graph.contains id = true)
    (hselected : session.selected = 0) : session.Placed graph where
  idle := by
    intro hidle
    rw [hactive] at hidle
    cases hidle
  active := by
    intro conversation' id' hactive'
    rw [hactive] at hactive'
    obtain ⟨-, rfl⟩ := Cursor.active.inj hactive'
    obtain ⟨node, hget⟩ := Graph.contains_iff.1 hnode
    refine ⟨node, hget, ?_⟩
    omega

theorem of_started {id : String} (hidle : session.cursor = .idle)
    (hnode : graph.contains id = true) : (session.start graph id).1.Placed graph := by
  rw [start_of_contains hidle hnode]
  exact of_entered rfl hnode rfl

theorem of_closed (hidle : session.cursor = .idle) (hselected : session.selected = 0)
    (hpending : session.pending = []) : session.Placed graph where
  idle := fun _ => ⟨hselected, hpending⟩
  active := by
    intro conversation id hactive
    rw [hidle] at hactive
    cases hactive

/-- **One move** keeps the cursor well placed. -/
theorem moves (h : session.Placed graph) {notice : Option Notice}
    (hmove : Session.Moves graph session session' notice) : session'.Placed graph := by
  cases hmove with
  | stays => exact h
  | opens hidle hnode => exact of_entered rfl hnode rfl
  | @highlights conversation node selected hactive hget hlt =>
    -- the cursor stays where it is
    constructor
    · intro hidle
      rw [hactive] at hidle
      cases hidle
    · intro conversation' id hactive'
      rw [hactive] at hactive'
      obtain ⟨-, rfl⟩ := Cursor.active.inj hactive'
      exact ⟨node, hget, Or.inl hlt⟩
  | continues hleaves _ hnext =>
    obtain ⟨-, hnode, hcursor, -⟩ := hleaves.of_continued hnext
    exact of_entered hcursor hnode hleaves.selected_eq
  | ends hleaves _ hending =>
    obtain ⟨reason, -, -, hcursor, hpending⟩ := hleaves.of_ended hending
    exact of_closed hcursor hleaves.selected_eq hpending
  | cancels hactive => exact of_closed rfl rfl rfl

/-- **A run of operations** keeps the cursor well placed. -/
theorem play (h : session.Placed graph) {operations : List Operation}
    (hon : ∀ operation ∈ operations, operation.On graph) :
    (Operation.play session operations).1.Placed graph := by
  induction operations generalizing session with
  | nil => exact h
  | cons operation rest ih =>
    rw [List.forall_mem_cons] at hon
    exact ih (h.moves (operation.moves session hon.1)) hon.2

/-- The highlighted choice can be confirmed, or the node has none and can be left without one. -/
theorem confirm_leaves (h : session.Placed graph) {conversation : ConversationId} {id : String}
    (hactive : session.cursor = .active conversation id) :
    ∃ node choice session' departure, session.confirm graph = (session', .ok departure) ∧
      node.choices[session.selected]? = choice ∧ (choice = none → node.isLeaf = true) ∧
      Leaves graph session conversation node choice session' departure := by
  obtain ⟨node, hget, hselected⟩ := h.active conversation id hactive
  rcases session.confirm_cases graph with
    ⟨error, herror⟩ | ⟨conversation', node', choice, session', departure, hok, hchoice, hleaf,
      hleaves⟩
  · exfalso
    have hcurrent := currentNode?_of_active hactive hget
    -- a refusal would need a node that is missing, or a highlight that is not on a choice
    rcases Session.confirm_error_iff.1 (congrArg Prod.snd herror) with
      hastray | ⟨other, hother, hchoices, hle, -⟩
    · rw [hastray.currentNode?_eq] at hcurrent
      cases hcurrent
    · rw [hcurrent] at hother
      obtain rfl := Option.some.inj hother
      have hpos : 0 < node.choiceCount := List.length_pos_iff.2 hchoices
      omega
  · obtain ⟨rfl, -⟩ := Cursor.active.inj (hactive.symm.trans hleaves.cursor_eq)
    exact ⟨node', choice, session', departure, hok, hchoice, hleaf, hleaves⟩

/-- Confirming completes the current node. Then the conversation goes on with a node of the graph,
or it ends there. -/
theorem confirm (h : session.Placed graph) {conversation : ConversationId} {id : String}
    (hactive : session.cursor = .active conversation id) :
    ∃ session' departure, session.confirm graph = (session', .ok departure) ∧
      departure.left = id ∧ session'.completed = session.completed ++ [id] ∧
      ((∃ next, departure.transition = .continued next ∧ graph.contains next = true ∧
          session'.cursor = .active conversation next) ∨
        ∃ ending, departure.transition = .ended ending ∧ ending.conversation = conversation ∧
          ending.lastNode = id ∧ ending.reason ≠ .cancelled ∧ session'.cursor = .idle) := by
  obtain ⟨node, choice, session', departure, hok, -, -, hleaves⟩ := h.confirm_leaves hactive
  obtain ⟨-, rfl⟩ := Cursor.active.inj (hactive.symm.trans hleaves.cursor_eq)
  refine ⟨session', departure, hok, hleaves.left_eq, hleaves.completed_eq, ?_⟩
  cases htransition : departure.transition with
  | continued next =>
    obtain ⟨-, hnode, hcursor, -⟩ := hleaves.of_continued htransition
    exact Or.inl ⟨next, rfl, hnode, hcursor⟩
  | ended ending =>
    obtain ⟨reason, rfl, hreason, hcursor, -⟩ := hleaves.of_ended htransition
    exact Or.inr ⟨_, rfl, rfl, rfl, hreason, hcursor⟩

end Session.Placed

/-! ### The highlight in machine words -/

/-- The highlight, moved by `delta` among `count` choices, in machine words: positions are unsigned,
and the sum is formed in signed words before it is brought back into range. -/
def shiftedWord (selected count : UInt64) (delta : Int32) : UInt64 :=
  let last := count.toInt64 - 1
  let moved := selected.toInt64 + delta.toInt64
  (if moved < 0 then 0 else if last < moved then last else moved).toUInt64

theorem toNat_toUInt64 {word : Int64} (h : 0 ≤ word.toInt) :
    (word.toUInt64.toNat : Int) = word.toInt := by
  have hle : 0 ≤ word := Int64.le_iff_toInt_le.2 h
  rw [Int64.toNat_toUInt64_of_le hle]
  exact Int.toNat_of_nonneg h

/-- The words are wide enough for as many choices as fit into memory. -/
theorem toNat_shiftedWord {selected count : Nat} (delta : Int32) (hlt : selected < count)
    (hcount : count ≤ 2 ^ 62) :
    ((shiftedWord (.ofNat selected) (.ofNat count) delta).toNat : Int) =
      max 0 (min (selected + delta.toInt) (count - 1)) := by
  -- neither the last position nor the sum leaves the range of signed words
  have hge := delta.le_toInt
  have hdelta := delta.toInt_lt
  have hlast : ((UInt64.ofNat count).toInt64 - 1).toInt = count - 1 := by
    rw [UInt64.toInt64_ofNat', Int64.toInt_sub, Int64.toInt_ofNat_of_lt (by omega),
      Int64.toInt_one]
    exact Int.bmod_eq_of_le (by omega) (by omega)
  have hmoved : ((UInt64.ofNat selected).toInt64 + delta.toInt64).toInt =
      selected + delta.toInt := by
    rw [UInt64.toInt64_ofNat', Int64.toInt_add, Int64.toInt_ofNat_of_lt (by omega),
      Int32.toInt_toInt64]
    exact Int.bmod_eq_of_le (by omega) (by omega)
  unfold shiftedWord
  simp only [Int64.lt_iff_toInt_lt, hlast, hmoved, Int64.toInt_zero]
  split_ifs with hneg hpast
  · rw [toNat_toUInt64 (by decide), Int64.toInt_zero]
    omega
  · rw [toNat_toUInt64 (by omega), hlast]
    omega
  · rw [toNat_toUInt64 (by omega), hmoved]
    omega

theorem Node.not_isLeaf_of_pos {node : Node} (hpos : 0 < node.choiceCount) :
    ¬ node.isLeaf = true :=
  fun hleaf => (List.length_pos_iff.1 hpos) (List.isEmpty_iff.1 hleaf)

/-- On a node with choices the highlight moves as far as they go. -/
theorem Session.selected_moveSelection {session : Session} {graph : Graph} {node : Node}
    (hcurrent : session.currentNode? graph = some node) (hpos : 0 < node.choiceCount)
    (delta : Int) :
    ((session.moveSelection graph delta).selected : Int) =
      max 0 (min (session.selected + delta) (node.choiceCount - 1)) := by
  unfold moveSelection
  rw [hcurrent]
  dsimp only
  rw [if_neg (Node.not_isLeaf_of_pos hpos)]
  exact Int.toNat_of_nonneg (by omega)

/-- **A session never loses its place.** After any operations on one graph, from the start: nothing
is highlighted or pending while no conversation is open. While one is open, its node is one of the
graph, and the highlight is on one of its choices, or at zero if it has none. So there always is a
way on: confirming completes the current node, after which the conversation is on another node of
the graph or has ended, and leaving ends the conversation. The highlight can be computed in machine
words, whichever way it is moved. -/
theorem placed_of_play (graph : Graph) (operations : List Operation)
    (hon : ∀ operation ∈ operations, operation.On graph) :
    let session := (Operation.play Session.fresh operations).1
    (session.cursor = .idle → session.selected = 0 ∧ session.pending = []) ∧
    ∀ conversation id, session.cursor = .active conversation id →
      ∃ node, graph.get? id = some node ∧
        (session.selected < node.choiceCount ∨ node.choiceCount = 0 ∧ session.selected = 0) ∧
        (∃ session' departure, session.confirm graph = (session', .ok departure) ∧
          departure.left = id ∧ session'.completed = session.completed ++ [id] ∧
          ((∃ next, departure.transition = .continued next ∧ graph.contains next = true ∧
              session'.cursor = .active conversation next) ∨
            ∃ ending, departure.transition = .ended ending ∧
              ending.conversation = conversation ∧ ending.lastNode = id ∧
              ending.reason ≠ .cancelled ∧ session'.cursor = .idle)) ∧
        (∃ session' ending, session.cancel = (session', some ending) ∧
          ending.conversation = conversation ∧ ending.lastNode = id ∧ session'.cursor = .idle) ∧
        ∀ delta : Int32, 0 < node.choiceCount → node.choiceCount ≤ 2 ^ 62 →
          (shiftedWord (.ofNat session.selected) (.ofNat node.choiceCount) delta).toNat =
            (session.moveSelection graph delta.toInt).selected := by
  intro session
  have hplaced : session.Placed graph := (Session.Placed.fresh graph).play hon
  refine ⟨hplaced.idle, ?_⟩
  intro conversation id hactive
  obtain ⟨node, hget, hselected⟩ := hplaced.active conversation id hactive
  refine ⟨node, hget, hselected, hplaced.confirm hactive,
    ⟨_, _, Session.cancel_of_active hactive, rfl, rfl, rfl⟩, ?_⟩
  intro delta hpos hcount
  have hcurrent := Session.currentNode?_of_active hactive hget
  have hlt : session.selected < node.choiceCount := by omega
  have hmoved := Session.selected_moveSelection hcurrent hpos delta.toInt
  have hword := toNat_shiftedWord delta hlt hcount
  exact Int.ofNat_inj.1 (hword.trans hmoved.symm)

/-- A node with three choices, the highlight of which is moved far beyond the last one. -/
theorem placed_of_play_far :
    let gate : Node :=
      { id := "gate"
        speaker := "Guard"
        text := "Who is there?"
        choices := [{ text := "A friend." }, { text := "A student." }, { text := "Nobody." }] }
    let graph : Graph := ⟨[gate], by decide⟩
    let operations := [.start graph "gate", .moveSelection graph 2147483647, .choose graph 7]
    (∀ operation ∈ operations, operation.On graph) ∧
      (Operation.play Session.fresh operations).1.selected = 2 ∧
      ∃ session' departure,
        (Operation.play Session.fresh operations).1.confirm graph = (session', .ok departure) ∧
        departure.left = "gate" := by
  intro gate graph operations
  have hon : ∀ operation ∈ operations, operation.On graph := by
    simp [operations, Operation.On, Operation.graph?]
  have hcursor : (Operation.play Session.fresh operations).1.cursor = .active ⟨1⟩ "gate" := by
    decide
  obtain ⟨-, hactive⟩ := placed_of_play graph operations hon
  obtain ⟨node, -, -, ⟨session', departure, hconfirm, hleft, -⟩, -⟩ := hactive _ _ hcursor
  exact ⟨hon, by decide, session', departure, hconfirm, hleft⟩

end Sidescroller.Story
