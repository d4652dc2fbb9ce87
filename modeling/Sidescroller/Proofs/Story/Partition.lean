import Sidescroller.Proofs.Story.Conversation

/-!
# Conversations partition the log

A session logs a node when it is left. Besides, it keeps the nodes of the open conversation, and
hands them over when that ends. Over a run of operations, each of which may be given another graph,
nothing is lost and nothing is handed over twice: the log is what the conversations hand over, one
after the other, and then what the open one has completed.

* `Talk` — a conversation that has ended, with its opening;
* `Partitioned` — the invariant: the notices of a run are those of some talks one after the other,
  the log is what these hand over, and what comes behind belongs to the open conversation;
* `Partitioned.moves`, `Partitioned.play` — every operation, and so every run, keeps it;
* `conversations_partition_log` — what this says about a session from the start.
-/

namespace Sidescroller.Story

/-- The ending that a notice reports. -/
def Notice.ending? : Notice → Option Ending
  | opened _ _ => none
  | ended ending => some ending

/-- A conversation that has ended, and the node it was opened on. -/
structure Talk where
  first : String
  ending : Ending

/-- A talk is opened and then ended, under one identity. -/
def Talk.notices (talk : Talk) : List Notice :=
  [.opened talk.ending.conversation talk.first, .ended talk.ending]

/-- The notice of the open conversation, if it was opened on `first`. -/
def Session.openNotice (session : Session) (first : String) : List Notice :=
  match session.cursor with
  | .idle => []
  | .active conversation _ => [.opened conversation first]

theorem filterMap_ending?_talks (talks : List Talk) :
    (talks.flatMap Talk.notices).filterMap Notice.ending? = talks.map (·.ending) := by
  induction talks with
  | nil => rfl
  | cons talk rest ih =>
    rw [List.flatMap_cons, List.filterMap_append, ih]
    rfl

theorem Session.filterMap_ending?_openNotice (session : Session) (first : String) :
    (session.openNotice first).filterMap Notice.ending? = [] := by
  unfold openNotice
  cases session.cursor with
  | idle => rfl
  | active conversation id => rfl

/-! ### The invariant -/

/-- **The conversations so far**, after the notices of a run: some talks, and the open conversation,
which was opened on `first`. -/
structure Partitioned (session : Session) (notices : List Notice) (talks : List Talk)
    (first : String) : Prop where
  /-- The notices are those of the talks and of the open conversation, in order. -/
  notices_eq : notices = talks.flatMap Talk.notices ++ session.openNotice first
  /-- The log is what the talks have handed over, and what is pending. -/
  completed_eq : session.completed = talks.flatMap (·.ending.completed) ++ session.pending
  /-- Nothing is pending without a conversation. -/
  pending_eq : session.cursor = .idle → session.pending = []
  /-- A talk hands over, last of all, what its end has added to the log. -/
  suffix : ∀ talk ∈ talks, talk.ending.logged <:+ talk.ending.completed

namespace Partitioned

variable {session session' : Session} {notices : List Notice} {talks : List Talk} {first : String}
  {graph : Graph}

theorem fresh (first : String) : Partitioned Session.fresh [] [] first where
  notices_eq := rfl
  completed_eq := rfl
  pending_eq := fun _ => rfl
  suffix := nofun

theorem openNotice_of_idle (h : session.cursor = .idle) : session.openNotice first = [] := by
  rw [Session.openNotice, h]

theorem openNotice_of_active {conversation : ConversationId} {id : String}
    (h : session.cursor = .active conversation id) :
    session.openNotice first = [.opened conversation first] := by
  rw [Session.openNotice, h]

/-- The open conversation becomes a talk when it ends. -/
theorem closes (h : Partitioned session notices talks first) {ending : Ending}
    (hclose : Session.Closes session session' ending) :
    Partitioned session' (notices ++ [.ended ending]) (talks ++ [⟨first, ending⟩]) first where
  notices_eq := by
    rw [h.notices_eq, openNotice_of_active hclose.cursor_eq, openNotice_of_idle hclose.idle,
      List.flatMap_append, List.flatMap_singleton, List.append_nil, List.append_assoc]
    rfl
  completed_eq := by
    rw [hclose.completed_eq, h.completed_eq, hclose.pending_eq, List.flatMap_append,
      List.flatMap_singleton, List.append_nil, hclose.handed_eq, List.append_assoc]
  pending_eq := fun _ => hclose.pending_eq
  suffix := by
    intro talk htalk
    rcases List.mem_append.1 htalk with htalk | htalk
    · exact h.suffix talk htalk
    · obtain rfl := List.mem_singleton.1 htalk
      exact ⟨session.pending, hclose.handed_eq.symm⟩

/-- **One move** keeps the invariant. -/
theorem moves (h : Partitioned session notices talks first) {notice : Option Notice}
    (hmove : Session.Moves graph session session' notice) :
    ∃ talks' first', Partitioned session' (notices ++ notice.toList) talks' first' := by
  cases notice with
  | some notice =>
    cases notice with
    | ended ending =>
      -- whatever ended it, the nodes are handed over in the same way
      exact ⟨_, _, h.closes hmove.closes⟩
    | opened conversation id =>
      generalize hnotice : some (Notice.opened conversation id) = notice at hmove
      cases hmove with
      | @opens id' hidle hnode =>
        obtain ⟨rfl, rfl⟩ := Notice.opened.inj (Option.some.inj hnotice)
        refine ⟨talks, id, ?_, ?_, nofun, h.suffix⟩
        · -- no conversation was open, so the new notice comes right after those of the talks
          rw [h.notices_eq, openNotice_of_idle hidle, List.append_nil]
          rfl
        · rw [h.completed_eq, h.pending_eq hidle]
      | _ => cases hnotice
  | none =>
    rw [Option.toList_none, List.append_nil]
    refine ⟨talks, first, ?_⟩
    -- the moves that are not reported leave the talks as they are
    generalize hnotice : none = notice at hmove
    cases hmove with
    | stays => exact h
    | highlights hactive hget hlt => exact ⟨h.notices_eq, h.completed_eq, h.pending_eq, h.suffix⟩
    | continues hleaves hchoice hnext =>
      obtain ⟨-, -, hcursor, hpending⟩ := hleaves.of_continued hnext
      refine ⟨?_, ?_, ?_, h.suffix⟩
      · -- it is the same conversation, on another node
        rw [h.notices_eq, openNotice_of_active hleaves.cursor_eq, openNotice_of_active hcursor]
      · rw [hleaves.completed_eq, h.completed_eq, hpending, List.append_assoc]
      · intro hidle
        cases hcursor.symm.trans hidle
    | _ => cases hnotice

end Partitioned

/-- **A run of operations** keeps the invariant. -/
theorem Partitioned.play {session : Session} {notices : List Notice} {talks : List Talk}
    {first : String} (h : Partitioned session notices talks first) (operations : List Operation) :
    ∃ talks' first', Partitioned (Operation.play session operations).1
      (notices ++ Operation.notices session operations) talks' first' := by
  induction operations generalizing session notices talks first with
  | nil =>
    refine ⟨talks, first, ?_⟩
    show Partitioned session (notices ++ []) talks first
    rw [List.append_nil]
    exact h
  | cons operation rest ih =>
    obtain ⟨graph, hon⟩ := operation.exists_on
    obtain ⟨talks', first', hnext⟩ := h.moves (operation.moves session hon)
    have hrest := ih hnext
    rw [List.append_assoc] at hrest
    exact hrest

/-- **Conversations partition the log.** After any operations, on any graphs:

* openings and endings alternate, beginning with an opening, and every ending has the identity of
  the opening before it. If a conversation is open, its opening comes last.
* The log is what the endings have handed over, one after the other, followed by the nodes completed
  in the open conversation, of which there are none while no conversation is open.
* An ending that is not a cancellation hands over its last node last.
* Whatever operation ends a conversation next, it is the open one, under its own identity, and the
  log grows by the last node, or not at all if the conversation is cancelled. -/
theorem conversations_partition_log (operations : List Operation) :
    let session := (Operation.play Session.fresh operations).1
    let notices := Operation.notices Session.fresh operations
    (∃ (talks : List Talk) (first : String),
      notices = talks.flatMap Talk.notices ++ session.openNotice first) ∧
    session.completed =
      (notices.filterMap Notice.ending?).flatMap (·.completed) ++ session.pending ∧
    (session.cursor = .idle → session.pending = []) ∧
    (∀ ending, .ended ending ∈ notices → ending.reason ≠ .cancelled →
      ending.completed.getLast? = some ending.lastNode) ∧
    ∀ (operation : Operation) (ending : Ending),
      operation.notice? session = some (.ended ending) →
      session.conversation? = some ending.conversation ∧
      (operation.perform session).1.completed = session.completed ++
        if ending.reason = .cancelled then [] else [ending.lastNode] := by
  intro session notices
  obtain ⟨talks, first, h⟩ : ∃ talks first, Partitioned session notices talks first :=
    (Partitioned.fresh "").play operations
  -- the endings are those of the talks
  have hendings : notices.filterMap Notice.ending? = talks.map (·.ending) := by
    rw [h.notices_eq, List.filterMap_append, filterMap_ending?_talks,
      Session.filterMap_ending?_openNotice, List.append_nil]
  refine ⟨⟨talks, first, h.notices_eq⟩, ?_, h.pending_eq, ?_, ?_⟩
  · rw [hendings, List.flatMap_map]
    exact h.completed_eq
  · intro ending hending hreason
    have hmem : ending ∈ notices.filterMap Notice.ending? :=
      List.mem_filterMap.2 ⟨_, hending, rfl⟩
    rw [hendings] at hmem
    obtain ⟨talk, htalk, rfl⟩ := List.mem_map.1 hmem
    obtain ⟨before, hbefore⟩ := h.suffix talk htalk
    have hlogged : talk.ending.logged = [talk.ending.lastNode] := Ending.logged_mk hreason
    rw [← hbefore, hlogged, List.getLast?_concat]
  · intro operation ending hnotice
    obtain ⟨graph, hon⟩ := operation.exists_on
    have hmove := operation.moves session hon
    rw [hnotice] at hmove
    have hclose := hmove.closes
    constructor
    · rw [Session.conversation?, hclose.cursor_eq]
    · rw [hclose.completed_eq]
      split_ifs with hreason
      · rw [Ending.logged, hreason]
      · have hlogged : ending.logged = [ending.lastNode] := Ending.logged_mk hreason
        rw [hlogged]

/-- Two conversations through a gate into a hall. The second one has not been ended yet, and may be
cancelled there. -/
theorem conversations_partition_log_visits :
    let gate : Node :=
      { id := "gate"
        speaker := "Guard"
        text := "Come in."
        choices := [{ text := "Thanks.", next := some "hall" }] }
    let hall : Node := { id := "hall", speaker := "Guard", text := "Wait here." }
    let graph : Graph := ⟨[gate, hall], by decide⟩
    let through := [.start graph "gate", .confirm graph]
    let operations := through ++ [.confirm graph] ++ through
    let session := (Operation.play Session.fresh operations).1
    Operation.notices Session.fresh operations =
        [.opened ⟨1⟩ "gate", .ended ⟨⟨1⟩, "hall", ["gate", "hall"], .terminal⟩,
          .opened ⟨2⟩ "gate"] ∧
      session.completed = ["gate", "hall"] ++ ["gate"] ∧
      ["gate", "hall"].getLast? = some "hall" ∧
      Operation.cancel.notice? session = some (.ended ⟨⟨2⟩, "hall", ["gate"], .cancelled⟩) ∧
      session.conversation? = some ⟨2⟩ ∧
      (Operation.cancel.perform session).1.completed = session.completed ++ [] := by
  intro gate hall graph through operations session
  have hnotices : Operation.notices Session.fresh operations =
      [.opened ⟨1⟩ "gate", .ended ⟨⟨1⟩, "hall", ["gate", "hall"], .terminal⟩,
        .opened ⟨2⟩ "gate"] := by decide
  have hcancel : Operation.cancel.notice? session =
      some (.ended ⟨⟨2⟩, "hall", ["gate"], .cancelled⟩) := by decide
  obtain ⟨-, hlog, -, hendings, hnext⟩ := conversations_partition_log operations
  rw [hnotices] at hlog hendings
  have hlast := hendings ⟨⟨1⟩, "hall", ["gate", "hall"], .terminal⟩
    (List.mem_cons_of_mem _ List.mem_cons_self) nofun
  obtain ⟨hconversation, hcompleted⟩ := hnext .cancel _ hcancel
  exact ⟨hnotices, hlog, hlast, hcancel, hconversation, hcompleted⟩

end Sidescroller.Story
