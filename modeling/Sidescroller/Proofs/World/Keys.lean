import Sidescroller.Proofs.Story.Cursor
import Sidescroller.Proofs.World.Steering

/-!
# What the keys of a conversation do

A tick of a conversation reads the keys in a fixed order: leaving, then a number key if it names a
choice, then confirming, and only then the highlight. `Responds` lists what comes of them, each case
with the keys that bring it about. So whether a conversation goes on is decided by the node it is
on, by the highlight and by the keys.

* `Node.numbered?` — the choice that a number key names;
* `responds` — in a conversation one of the four cases applies;
* `Quits` — the keys that end a conversation;
* `ended_iff_quits`, `closed_iff_quits` — a tick ends the conversation exactly with these keys.
-/

namespace Sidescroller.Story

/-- The choice ends the conversation: it leads nowhere, or to an id that no node has. -/
def Choice.Ends (graph : Graph) (choice : Choice) : Prop :=
  ∀ next, choice.next = some next → graph.contains next = false

/-- The choice that a number key names, if one is pressed and names one. -/
def Node.numbered? (node : Node) : Option UInt8 → Option Choice
  | none => none
  | some key => if 0 < key.toNat then node.choices[key.toNat - 1]? else none

theorem Node.numbered?_of_getElem? {node : Node} {key : UInt8} {choice : Choice}
    (hpos : 0 < key.toNat) (hchoice : node.choices[key.toNat - 1]? = some choice) :
    node.numbered? (some key) = some choice := by
  rw [numbered?, if_pos hpos, hchoice]

theorem Node.mem_of_numbered? {node : Node} {key? : Option UInt8} {choice : Choice}
    (h : node.numbered? key? = some choice) : choice ∈ node.choices := by
  cases key? with
  | none => cases h
  | some key =>
    dsimp only [numbered?] at h
    split_ifs at h
    exact List.mem_of_getElem? h

theorem Node.numbered?_eq_none {node : Node} {key : UInt8}
    (h : ¬ (1 ≤ key.toNat ∧ key.toNat ≤ node.choiceCount)) : node.numbered? (some key) = none := by
  dsimp only [numbered?]
  split_ifs with hpos
  · have hle : node.choices.length ≤ key.toNat - 1 := by
      unfold choiceCount at h
      omega
    exact List.getElem?_eq_none hle
  · rfl

/-- How the conversation ended, if it did. -/
def Transition.ending? : Transition → Option Ending
  | continued _ => none
  | ended ending => some ending

theorem Transition.ending?_eq_some {transition : Transition} {ending : Ending} :
    transition.ending? = some ending ↔ transition = .ended ending := by
  cases transition with
  | continued next => exact iff_of_false nofun nofun
  | ended other => rw [ending?, Option.some.injEq, ended.injEq]

theorem Session.Leaves.ended_iff {graph : Graph} {session session' : Session}
    {conversation : ConversationId} {node : Node} {choice : Option Choice} {departure : Departure}
    (h : Leaves graph session conversation node choice session' departure) :
    (∃ ending, departure.transition = .ended ending) ↔
      ∀ taken, choice = some taken → taken.Ends graph := by
  rcases h.goes with ⟨next, hnext, hnode, htransition, -⟩ | ⟨reason, hreason, htransition, -⟩
  · -- the conversation goes on, and so the choice does not end it
    obtain ⟨taken, rfl, hlink⟩ := Option.bind_eq_some_iff.1 hnext
    rw [htransition]
    refine iff_of_false nofun ?_
    intro hends
    cases hnode.symm.trans (hends taken rfl next hlink)
  · refine iff_of_true ⟨_, htransition⟩ ?_
    rintro taken rfl next hlink
    rcases hreason with ⟨hnone, -⟩ | ⟨missing, hmissing, hbroken, -⟩
    · cases hlink.symm.trans hnone
    · obtain rfl := Option.some.inj (hlink.symm.trans hmissing)
      exact hbroken

end Sidescroller.Story

namespace Sidescroller.World

open Story (Session ConversationId Node Choice Graph Departure Ending)

variable {world : World} {conversation : ConversationId} {node : Node} {intent : Intent}
  {session : Session} {report : Option Report} {ending : Ending}

/-! ### One case for each key -/

/-- **What comes of the keys** in a conversation that is on a node: the session after them, and what
it has to report. -/
inductive Responds (world : World) (conversation : ConversationId) (node : Node)
    (intent : Intent) : Session → Option Report → Prop
  /-- Leaving goes before everything else. -/
  | cancels (hcancel : intent.cancel = true) :
    Responds world conversation node intent
      { world.session with cursor := .idle, selected := 0, pending := [] }
      (some (.ended ⟨conversation, node.id, world.session.pending, .cancelled⟩))
  /-- A number key names a choice, which is taken. -/
  | picks {choice : Choice} {session : Session} {departure : Departure}
      (hcancel : intent.cancel = false) (hnumber : node.numbered? intent.numeric = some choice)
      (hleaves : Session.Leaves world.graph world.session conversation node (some choice) session
        departure) :
    Responds world conversation node intent session (some (.departed departure))
  /-- The highlighted choice is taken, and where there is none the node has no choices. -/
  | confirms {choice : Option Choice} {session : Session} {departure : Departure}
      (hcancel : intent.cancel = false) (hnumber : node.numbered? intent.numeric = none)
      (hconfirm : intent.confirm = true)
      (hchoice : node.choices[world.session.selected]? = choice)
      (hleaf : choice = none → node.choices = [])
      (hleaves : Session.Leaves world.graph world.session conversation node choice session
        departure) :
    Responds world conversation node intent session (some (.departed departure))
  /-- At most the highlight moves. -/
  | highlights (selected : Nat) (hcancel : intent.cancel = false)
      (hnumber : node.numbered? intent.numeric = none) (hconfirm : intent.confirm = false) :
    Responds world conversation node intent { world.session with selected } none

theorem pick_of_active (hactive : world.session.cursor = .active conversation node.id)
    (hget : world.graph.get? node.id = some node) (key? : Option UInt8) :
    node.numbered? key? = none ∧ world.pick key? = none ∨
      ∃ choice session departure, node.numbered? key? = some choice ∧
        world.pick key? = some (session, departure) ∧
        Session.Leaves world.graph world.session conversation node (some choice) session
          departure := by
  cases key? with
  | none => exact Or.inl ⟨rfl, rfl⟩
  | some key =>
    unfold pick
    rcases world.session.chooseNumeric_cases world.graph key with
      h | ⟨conversation', node', choice, session, departure, h, hpos, hchoice, hleaves⟩
    · -- the session is on a node, so the key is out of range
      have hcurrent := Session.currentNode?_of_active hactive hget
      rcases Session.chooseNumeric_eq_none_iff.1 (congrArg Prod.snd h) with
        ⟨error, hastray⟩ | ⟨other, hother, hrange⟩
      · cases hcurrent.symm.trans hastray.currentNode?_eq
      · obtain rfl := Option.some.inj (hcurrent.symm.trans hother)
        simp only [h]
        exact Or.inl ⟨Node.numbered?_eq_none hrange, trivial⟩
    · obtain ⟨rfl, rfl⟩ := hleaves.node_eq hactive hget
      simp only [h]
      exact Or.inr ⟨choice, session, departure, Node.numbered?_of_getElem? hpos hchoice, rfl,
        hleaves⟩

/-- **One of the cases applies** in a conversation whose cursor is well placed. -/
theorem responds (hplaced : world.session.Placed world.graph)
    (hactive : world.session.cursor = .active conversation node.id)
    (hget : world.graph.get? node.id = some node) (intent : Intent) :
    Responds world conversation node intent (world.respond intent).1
      (world.respond intent).2 := by
  unfold respond
  cases hcancel : intent.cancel with
  | true =>
    rw [if_pos rfl, Session.cancel_of_active hactive]
    exact .cancels hcancel
  | false =>
    rw [if_neg Bool.false_ne_true]
    rcases pick_of_active hactive hget intent.numeric with
      ⟨hnumber, hpick⟩ | ⟨choice, session, departure, hnumber, hpick, hleaves⟩
    · simp only [hpick]
      cases hconfirm : intent.confirm with
      | true =>
        rw [if_pos rfl]
        -- a highlight that is well placed is not refused
        obtain ⟨node', choice, session, departure, hok, hchoice, hleaf, hleaves⟩ :=
          hplaced.confirm_leaves hactive
        obtain ⟨-, rfl⟩ := hleaves.node_eq hactive hget
        rw [hok]
        exact .confirms hcancel hnumber hconfirm hchoice
          (fun hnone => List.isEmpty_iff.1 (hleaf hnone)) hleaves
      | false =>
        rw [if_neg Bool.false_ne_true]
        obtain ⟨selected, hselected⟩ := world.highlight_eq intent
        rw [hselected]
        exact .highlights selected hcancel hnumber hconfirm
    · simp only [hpick]
      exact .picks hcancel hnumber hleaves

/-! ### Ends -/

/-- The end of the conversation, if that is what is reported. -/
def Report.ending? : Report → Option Ending
  | departed departure => departure.transition.ending?
  | ended ending => some ending

theorem Report.ending?_departed {departure : Departure} :
    (departed departure).ending? = some ending ↔ departure.transition = .ended ending :=
  Story.Transition.ending?_eq_some

theorem dialogueEnded_mem_finish {lastNode : String} {reason : Story.EndReason} :
    .dialogueEnded conversation lastNode reason ∈ (world.finish ending).2 ↔
      ending.conversation = conversation ∧ ending.lastNode = lastNode ∧
        ending.reason = reason := by
  unfold finish
  dsimp only
  rw [List.mem_cons, Event.dialogueEnded.injEq]
  split_ifs
  · simp [eq_comm]
  · simp [eq_comm]

/-- The world tells of an end exactly if the session reports it. -/
theorem dialogueEnded_mem_takeNote {lastNode : String} {reason : Story.EndReason} :
    .dialogueEnded conversation lastNode reason ∈ (world.takeNote report).2 ↔
      ∃ ending, report.bind Report.ending? = some ending ∧
        ending.conversation = conversation ∧ ending.lastNode = lastNode ∧
        ending.reason = reason := by
  cases report with
  | none => exact iff_of_false nofun nofun
  | some report =>
    cases report with
    | ended ending =>
      show _ ∈ (world.finish ending).2 ↔ _
      rw [dialogueEnded_mem_finish]
      simp [Report.ending?]
    | departed departure =>
      show _ ∈ (world.depart departure).2 ↔ _
      simp only [Option.bind_some, Report.ending?_departed]
      unfold depart
      cases departure.transition with
      | continued next => simp
      | ended ending => simp [dialogueEnded_mem_finish]

/-- **The keys that end a conversation** on a node, with the highlight on the choice `selected`. -/
inductive Quits (graph : Graph) (selected : Nat) (node : Node) (intent : Intent) : Prop
  /-- The player leaves. -/
  | cancel (hcancel : intent.cancel = true)
  /-- A number key names a choice that ends the conversation. -/
  | number {choice : Choice} (hnumber : node.numbered? intent.numeric = some choice)
      (hends : choice.Ends graph)
  /-- No choice is named by number, and a highlighted one that ends the conversation is
  confirmed. -/
  | confirm {choice : Choice} (hnumber : node.numbered? intent.numeric = none)
      (hconfirm : intent.confirm = true) (hchoice : node.choices[selected]? = some choice)
      (hends : choice.Ends graph)
  /-- A node without choices is confirmed. -/
  | dismiss (hconfirm : intent.confirm = true) (hleaf : node.choices = [])

namespace Responds

/-- What is reported to end is the conversation that is open, and it ends on its node. -/
theorem ending_eq (h : Responds world conversation node intent session report)
    (hending : report.bind Report.ending? = some ending) :
    ending.conversation = conversation ∧ ending.lastNode = node.id := by
  cases h with
  | cancels hcancel =>
    obtain rfl := Option.some.inj hending
    exact ⟨rfl, rfl⟩
  | picks hcancel hnumber hleaves =>
    obtain ⟨reason, rfl, -⟩ := hleaves.of_ended (Report.ending?_departed.1 hending)
    exact ⟨rfl, rfl⟩
  | confirms hcancel hnumber hconfirm hchoice hleaf hleaves =>
    obtain ⟨reason, rfl, -⟩ := hleaves.of_ended (Report.ending?_departed.1 hending)
    exact ⟨rfl, rfl⟩
  | highlights selected hcancel hnumber hconfirm => cases hending

/-- **An end is reported** exactly with the keys that end a conversation. -/
theorem quits_iff (h : Responds world conversation node intent session report) :
    Quits world.graph world.session.selected node intent ↔
      ∃ ending, report.bind Report.ending? = some ending := by
  cases h with
  | cancels hcancel => exact iff_of_true (.cancel hcancel) ⟨_, rfl⟩
  | @picks choice session departure hcancel hnumber hleaves =>
    have hended := hleaves.ended_iff
    simp only [Option.bind_some, Report.ending?_departed]
    rw [hended]
    constructor
    · -- of the four ways to quit only the second one fits the keys
      rintro (hcancel' | ⟨hnumber', hends⟩ | ⟨hnumber', -⟩ | ⟨-, hleaf⟩) taken htaken
      · cases hcancel.symm.trans hcancel'
      · obtain rfl := Option.some.inj htaken
        obtain rfl := Option.some.inj (hnumber.symm.trans hnumber')
        exact hends
      · cases hnumber.symm.trans hnumber'
      · -- on a node without choices no key names one
        have hmem := Node.mem_of_numbered? hnumber
        rw [hleaf] at hmem
        cases hmem
    · intro hends
      exact .number hnumber (hends choice rfl)
  | @confirms choice session departure hcancel hnumber hconfirm hchoice hleaf hleaves =>
    have hended := hleaves.ended_iff
    simp only [Option.bind_some, Report.ending?_departed]
    rw [hended]
    constructor
    · -- the last two fit, and of these only the third one if a choice is taken
      rintro (hcancel' | ⟨hnumber', -⟩ | ⟨-, -, hchoice', hends⟩ | ⟨-, hnone⟩) taken rfl
      · cases hcancel.symm.trans hcancel'
      · cases hnumber.symm.trans hnumber'
      · obtain rfl := Option.some.inj (hchoice.symm.trans hchoice')
        exact hends
      · rw [hnone] at hchoice
        cases hchoice
    · intro hends
      -- without a highlighted choice there is none, and the node is dismissed
      cases choice with
      | none => exact .dismiss hconfirm (hleaf rfl)
      | some taken => exact .confirm hnumber hconfirm hchoice (hends taken rfl)
  | highlights selected hcancel hnumber hconfirm =>
    refine iff_of_false ?_ nofun
    rintro (hcancel' | ⟨hnumber', -⟩ | ⟨-, hconfirm', -⟩ | ⟨hconfirm', -⟩)
    · cases hcancel.symm.trans hcancel'
    · cases hnumber.symm.trans hnumber'
    · cases hconfirm.symm.trans hconfirm'
    · cases hconfirm.symm.trans hconfirm'

/-- The session is idle afterwards exactly if an end is reported. -/
theorem idle_iff (h : Responds world conversation node intent session report)
    (hactive : world.session.cursor = .active conversation node.id) :
    session.cursor = .idle ↔ ∃ ending, report.bind Report.ending? = some ending := by
  -- a session that leaves a node is idle afterwards exactly if the departure tells of an end
  have hdeparted : ∀ {choice : Option Choice} {departure : Departure},
      Session.Leaves world.graph world.session conversation node choice session departure →
      (session.cursor = .idle ↔ ∃ ending, departure.transition = .ended ending) := by
    intro choice departure hleaves
    rcases hleaves.goes with
      ⟨next, -, -, htransition, hcursor, -⟩ | ⟨reason, -, htransition, hcursor, -⟩
    · rw [htransition, hcursor]
      exact iff_of_false nofun nofun
    · exact iff_of_true hcursor ⟨_, htransition⟩
  cases h with
  | cancels hcancel => exact iff_of_true rfl ⟨_, rfl⟩
  | picks hcancel hnumber hleaves =>
    simp only [Option.bind_some, Report.ending?_departed]
    exact hdeparted hleaves
  | confirms hcancel hnumber hconfirm hchoice hleaf hleaves =>
    simp only [Option.bind_some, Report.ending?_departed]
    exact hdeparted hleaves
  | highlights selected hcancel hnumber hconfirm =>
    refine iff_of_false ?_ nofun
    intro hidle
    cases hactive.symm.trans hidle

end Responds

/-! ### Ticks -/

section Tick

variable (hplaced : world.session.Placed world.graph)
  (hactive : world.session.cursor = .active conversation node.id)
  (hget : world.graph.get? node.id = some node)

theorem dialogueEnded_mem_tick (hmode : world.inDialogue = true) {dt : Float32}
    {conversation : ConversationId} {lastNode : String} {reason : Story.EndReason} :
    .dialogueEnded conversation lastNode reason ∈ (world.tick intent dt).2 ↔
      ∃ ending, (world.respond intent).2.bind Report.ending? = some ending ∧
        ending.conversation = conversation ∧ ending.lastNode = lastNode ∧
        ending.reason = reason := by
  rw [tick_of_inDialogue hmode, converse_eq]
  exact dialogueEnded_mem_takeNote

include hplaced hactive hget

/-- **A tick tells of the end of the conversation** exactly if its keys end it. -/
theorem ended_iff_quits (intent : Intent) (dt : Float32) :
    (∃ lastNode reason,
        .dialogueEnded conversation lastNode reason ∈ (world.tick intent dt).2) ↔
      Quits world.graph world.session.selected node intent := by
  have hresponds := responds hplaced hactive hget intent
  rw [hresponds.quits_iff]
  constructor
  · rintro ⟨lastNode, reason, hmem⟩
    obtain ⟨ending, hending, -⟩ := (dialogueEnded_mem_tick (inDialogue_of_active hactive)).1 hmem
    exact ⟨ending, hending⟩
  · rintro ⟨ending, hending⟩
    obtain ⟨hconversation, -⟩ := hresponds.ending_eq hending
    exact ⟨ending.lastNode, ending.reason, (dialogueEnded_mem_tick (inDialogue_of_active hactive)).2
      ⟨ending, hending, hconversation, rfl, rfl⟩⟩

/-- **No conversation is open after a tick** exactly if its keys end the one before it. -/
theorem closed_iff_quits (intent : Intent) (dt : Float32) :
    (world.tick intent dt).1.inDialogue = false ↔
      Quits world.graph world.session.selected node intent := by
  have hresponds := responds hplaced hactive hget intent
  rw [hresponds.quits_iff, ← hresponds.idle_iff hactive, inDialogue_eq_false_iff,
    session_tick_of_inDialogue (inDialogue_of_active hactive)]

end Tick

end Sidescroller.World
