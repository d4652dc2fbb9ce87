import Sidescroller.Proofs.Story.Chapters
import Sidescroller.Proofs.World.Run

/-!
# Events as a record of the playthrough

Whoever has the events of all ticks, and nothing else, knows where the story is. An `Account` is
what can be known from events: the open conversation, the inventory and the chapter. `Account.apply`
is the effect of one event, and refuses an event that does not fit.

* `Account.Agrees` — the account says of the world what is true;
* `Account.Agrees.happens` — after whatever happens, its events can be replayed, and the account
  agrees again;
* `replay_of_run` — so no replay of a run gets stuck, and all of them agree with the world. The
  ticks of an approach, whose events are dropped, have none.
-/

namespace Sidescroller.World

open Story (Session ConversationId Node Choice Departure Ending)

/-! ### Accounts -/

/-- The open conversation as events tell it. -/
structure Opening where
  /-- Which conversation it is. -/
  conversation : ConversationId
  /-- Whom it is with. -/
  npc : String
  /-- The node it is on. -/
  node : String

/-- What is known from events. -/
structure Account where
  /-- The open conversation. -/
  opening : Option Opening
  /-- The items gained, in order. -/
  inventory : List String
  /-- The chapter. -/
  chapter : String
  /-- Whether the last event of this tick was the end of a conversation. -/
  ended : Bool

namespace Account

/-- What is known before anything has happened. -/
def start (chapter : String) : Account := ⟨none, [], chapter, false⟩

/-- The effect of an event. A conversation is opened, or found to have no node, only while none is
open. All that happens in a conversation needs an open one, and its end names that conversation and
the node it is on. The chapter changes only right after the end of a conversation, from what it is
to something else. -/
def apply (account : Account) : Event → Option Account
  | .dialogueStarted conversation npc node =>
    match account.opening with
    | some _ => none
    | none => some { account with opening := some ⟨conversation, npc, node⟩, ended := false }
  | .dialogueUnavailable _ _ =>
    match account.opening with
    | some _ => none
    | none => some { account with ended := false }
  | .itemGained item =>
    match account.opening with
    | none => none
    | some _ => some { account with inventory := account.inventory ++ [item], ended := false }
  | .dialogueAdvanced node =>
    match account.opening with
    | none => none
    | some opening => some { account with opening := some { opening with node }, ended := false }
  | .dialogueEnded conversation lastNode _ =>
    match account.opening with
    | none => none
    | some opening =>
      if opening.conversation = conversation ∧ opening.node = lastNode then
        some { account with opening := none, ended := true }
      else none
  | .chapterAdvanced before after =>
    if account.ended = true ∧ account.chapter = before ∧ before ≠ after then
      some { account with chapter := after, ended := false }
    else none

/-- The effect of the events of one tick. -/
def replayTick (account : Account) (events : List Event) : Option Account :=
  events.foldlM apply { account with ended := false }

/-- The effect of the events of some ticks. -/
def replay (account : Account) (ticks : List (List Event)) : Option Account :=
  ticks.foldlM replayTick account

/-- **The account says what is true.** -/
structure Agrees (account : Account) (plot : Plot) : Prop where
  /-- The open conversation, if there is one. -/
  conversation_eq : account.opening.map (·.conversation) = plot.session.conversation?
  /-- Who the player is talking to. -/
  npc_eq : account.opening.map (·.npc) = plot.partner
  /-- The current node. -/
  node_eq : account.opening.map (·.node) = plot.session.currentId?
  /-- The inventory. -/
  inventory_eq : account.inventory = plot.session.inventory
  /-- The chapter. -/
  chapter_eq : account.chapter = plot.chapters.current

variable {account account' : Account} {plot plot' : Plot} {events : List Event}

/-! ### Replaying what can happen -/

theorem Agrees.opening_of_idle (h : Agrees account plot) (hidle : plot.session.cursor = .idle) :
    account.opening = none ∧ plot.partner = none := by
  have hconversation := h.conversation_eq
  rw [Session.conversation?, hidle, Option.map_eq_none_iff] at hconversation
  have hnpc := h.npc_eq
  rw [hconversation, Option.map_none] at hnpc
  exact ⟨hconversation, hnpc.symm⟩

theorem Agrees.opening_of_active (h : Agrees account plot) {conversation : ConversationId}
    {node : String} (hactive : plot.session.cursor = .active conversation node) :
    ∃ npc, account.opening = some ⟨conversation, npc, node⟩ ∧ plot.partner = some npc := by
  have hconversation := h.conversation_eq
  have hnode := h.node_eq
  rw [Session.conversation?, hactive] at hconversation
  rw [Session.currentId?, hactive] at hnode
  obtain ⟨opening, hopening, rfl⟩ := Option.map_eq_some_iff.1 hconversation
  rw [hopening, Option.map_some, Option.some.injEq] at hnode
  have hnpc := h.npc_eq
  rw [hopening, Option.map_some] at hnpc
  exact ⟨opening.npc, by rw [hopening, ← hnode], hnpc.symm⟩

/-- Items join the inventory one after the other. -/
theorem foldlM_itemGained {opening : Opening} (hopening : account.opening = some opening)
    (hended : account.ended = false) (items : List String) :
    (items.map Event.itemGained).foldlM apply account =
      some { account with inventory := account.inventory ++ items } := by
  induction items generalizing account with
  | nil => simp
  | cons item items ih =>
    have happly : account.apply (.itemGained item) =
        some { account with inventory := account.inventory ++ [item] } := by
      rw [apply, hopening, ← hended]
    rw [List.map_cons, List.foldlM_cons, happly]
    have hrest := @ih { account with inventory := account.inventory ++ [item] } hopening hended
    simpa using hrest

/-- The end of a conversation, with the change of the chapter if there is one. -/
theorem foldlM_closing (account : Account) (ending : Ending) {npc : String}
    (hopening : account.opening = some ⟨ending.conversation, npc, ending.lastNode⟩)
    (hchapter : account.chapter = plot.chapters.current) :
    ∃ ended, (plot.closing ending).foldlM apply account =
      some
        { account with
          opening := none
          chapter := (plot.chapters.record ending.completed).current
          ended } := by
  -- the end fits the open conversation, whatever comes after it
  have hend : account.apply (.dialogueEnded ending.conversation ending.lastNode ending.reason) =
      some { account with opening := none, ended := true } := by
    simp only [apply, hopening, and_self, if_true]
  unfold Plot.closing
  dsimp only
  rw [List.foldlM_cons, hend]
  split_ifs with hsame
  · -- the chapter stays, and so the end is the last event
    refine ⟨true, ?_⟩
    rw [hsame, ← hchapter]
    rfl
  · refine ⟨false, ?_⟩
    have hturn : apply { account with opening := none, ended := true }
        (.chapterAdvanced plot.chapters.current (plot.chapters.record ending.completed).current) =
        some
          { account with
            opening := none
            chapter := (plot.chapters.record ending.completed).current
            ended := false } := by
      rw [apply, if_pos ⟨rfl, hchapter, Ne.symm hsame⟩]
    change (apply _ _ >>= _) = _
    rw [hturn]
    rfl

/-- **Whatever happens can be replayed**, and the account agrees afterwards. -/
theorem Agrees.happens (h : Agrees account plot) (hended : account.ended = false)
    (hstep : Happens plot plot' events) :
    ∃ account', events.foldlM apply account = some account' ∧ Agrees account' plot' := by
  cases hstep with
  | nothing selected =>
    -- the highlight is no part of an account
    exact ⟨account, rfl, h.conversation_eq, h.npc_eq, h.node_eq, h.inventory_eq, h.chapter_eq⟩
  | unavailable npc node hidle =>
    obtain ⟨hopening, -⟩ := h.opening_of_idle hidle
    refine ⟨{ account with ended := false }, ?_, h.conversation_eq, h.npc_eq, h.node_eq,
      h.inventory_eq, h.chapter_eq⟩
    rw [List.foldlM_cons, apply]
    simp only [hopening]
    rfl
  | opened npc node hidle hnode =>
    obtain ⟨hopening, -⟩ := h.opening_of_idle hidle
    refine ⟨⟨some ⟨⟨plot.session.nextConversation⟩, npc, node⟩, account.inventory,
      account.chapter, false⟩, ?_, rfl, rfl, rfl, h.inventory_eq, h.chapter_eq⟩
    rw [List.foldlM_cons, apply]
    simp only [hopening]
    rfl
  | @advanced conversation node choice session departure next hleaves hnext =>
    obtain ⟨npc, hopening, hpartner⟩ := h.opening_of_active hleaves.cursor_eq
    obtain ⟨-, -, hcursor, -⟩ := hleaves.of_continued hnext
    -- the items first, then the node
    rw [List.foldlM_append, foldlM_itemGained hopening hended]
    refine ⟨⟨some ⟨conversation, npc, next⟩, account.inventory ++ departure.items,
      account.chapter, false⟩, ?_, ?_, hpartner.symm, ?_, ?_, h.chapter_eq⟩
    · change (apply _ _ >>= _) = _
      rw [apply]
      simp only [hopening]
      rfl
    · rw [Session.conversation?, hcursor]
      rfl
    · rw [Session.currentId?, hcursor]
      rfl
    · rw [hleaves.inventory_eq, ← h.inventory_eq]
  | @ended conversation node choice session departure ending hleaves hending =>
    obtain ⟨npc, hopening, -⟩ := h.opening_of_active hleaves.cursor_eq
    obtain ⟨reason, rfl, -, hcursor, -⟩ := hleaves.of_ended hending
    rw [List.foldlM_append, foldlM_itemGained hopening hended]
    obtain ⟨ended, hclosing⟩ := foldlM_closing
      { account with inventory := account.inventory ++ departure.items }
      ⟨conversation, node.id, plot.session.pending ++ [node.id], reason⟩ hopening h.chapter_eq
    refine ⟨_, hclosing, ?_, rfl, ?_, ?_, rfl⟩
    · rw [Session.conversation?, hcursor]
      rfl
    · rw [Session.currentId?, hcursor]
      rfl
    · rw [hleaves.inventory_eq, ← h.inventory_eq]
  | @cancelled conversation node hactive =>
    obtain ⟨npc, hopening, -⟩ := h.opening_of_active hactive
    obtain ⟨ended, hclosing⟩ := foldlM_closing account
      ⟨conversation, node, plot.session.pending, .cancelled⟩ hopening h.chapter_eq
    exact ⟨_, hclosing, rfl, rfl, rfl, h.inventory_eq, rfl⟩

theorem Agrees.withEnded (h : Agrees account plot) (ended : Bool) :
    Agrees { account with ended } plot :=
  ⟨h.conversation_eq, h.npc_eq, h.node_eq, h.inventory_eq, h.chapter_eq⟩

/-! ### Replaying runs -/

/-- **The ticks of a run can be replayed**, and the account agrees afterwards. -/
theorem Agrees.run {world : World} (h : Agrees account world.plot) (commands : List Command) :
    ∃ account', account.replay (world.run commands).2 = some account' ∧
      Agrees account' (world.run commands).1.plot := by
  induction commands generalizing account world with
  | nil => exact ⟨account, rfl, h⟩
  | cons command rest ih =>
    have hstep := world.perform_happens command
    unfold World.run
    dsimp only
    cases hevents : (world.perform command).2 with
    | none =>
      -- no tick: the account is the one that agreed before
      rw [hevents] at hstep
      obtain ⟨account', hreplay, hagrees⟩ := (h.withEnded false).happens rfl hstep
      obtain rfl := Option.some.inj hreplay
      exact ih (hagrees.withEnded account.ended)
    | some events =>
      rw [hevents, Option.getD_some] at hstep
      obtain ⟨middle, hreplay, hagrees⟩ := (h.withEnded false).happens rfl hstep
      obtain ⟨account', hrest, hlast⟩ := ih hagrees
      refine ⟨account', ?_, hlast⟩
      change (account.replayTick events >>= fun account => account.replay _) = _
      rw [replayTick, hreplay]
      exact hrest

/-- That a conversation has ended can only help an event. -/
theorem apply_withEnded {event : Event} {ended : Bool}
    (hended : account.ended = true → ended = true)
    (h : account.apply event = some account') :
    ({ account with ended } : Account).apply event = some account' := by
  cases event with
  | chapterAdvanced before after =>
    rw [apply] at h ⊢
    split_ifs at h with hcond
    rw [if_pos ⟨hended hcond.1, hcond.2⟩]
    exact h
  | _ => exact h

theorem foldlM_withEnded (ended : Bool) (hended : account.ended = true → ended = true)
    (h : events.foldlM apply account = some account') :
    ∃ ended', events.foldlM apply { account with ended } = some { account' with ended := ended' } ∧
      (account'.ended = true → ended' = true) := by
  cases events with
  | nil =>
    obtain rfl := Option.some.inj h
    exact ⟨ended, rfl, hended⟩
  | cons event rest =>
    rw [List.foldlM_cons] at h ⊢
    obtain ⟨middle, happly, hrest⟩ := Option.bind_eq_some_iff.1 h
    rw [apply_withEnded hended happly]
    -- from the first event on the two accounts are one
    exact ⟨account'.ended, hrest, id⟩

/-- Without the borders between ticks a replay has more freedom, not less. -/
theorem foldlM_flatten {ticks : List (List Event)} (ended : Bool)
    (hended : account.ended = true → ended = true) (h : account.replay ticks = some account') :
    ∃ ended', ticks.flatten.foldlM apply { account with ended } =
      some { account' with ended := ended' } := by
  induction ticks generalizing account ended with
  | nil =>
    obtain rfl := Option.some.inj h
    exact ⟨ended, rfl⟩
  | cons events rest ih =>
    obtain ⟨middle, htick, hrest⟩ := Option.bind_eq_some_iff.1 h
    -- at the border of a tick the flag is false
    obtain ⟨ended', hevents, hended'⟩ :=
      foldlM_withEnded ended (fun hfalse => absurd hfalse Bool.false_ne_true) htick
    obtain ⟨ended'', hlast⟩ := ih ended' hended' hrest
    refine ⟨ended'', ?_⟩
    rw [List.flatten_cons, List.foldlM_append]
    rw [hevents]
    exact hlast

end Account

/-- **The events are a record of the playthrough.** Whatever a world is told to do from its
beginning, the events of its ticks can be replayed without getting stuck, tick by tick as well as in
one go. Then the account agrees with the world about the open conversation, the partner, the node,
the inventory and the chapter. An approach, which drops the events of its ticks, drops none. -/
theorem replay_of_run {character : Character} {rules : Rules} {level : Level}
    {script : Story.Script} {world : World}
    (h : create character rules level script = .ok world) (commands : List Command) :
    let last := (world.run commands).1
    let ticks := (world.run commands).2
    let start := Account.start script.outline.initial
    (∃ account, start.replay ticks = some account ∧ account.Agrees last.plot) ∧
    (∃ account, ticks.flatten.foldlM Account.apply start = some account ∧
      account.Agrees last.plot) ∧
    ∀ name dt, (last.approachLogged name dt).1 = last.approach name dt ∧
      (last.approachLogged name dt).2 = [] := by
  intro last ticks start
  obtain ⟨graph, chapters, hsetUp, hplot⟩ := plot_of_create h
  obtain ⟨hcurrent, -, -⟩ := Story.Script.tables_of_setUp hsetUp
  have hstart : start.Agrees world.plot := by
    rw [hplot]
    exact ⟨rfl, rfl, rfl, rfl, hcurrent.symm⟩
  -- tick by tick first; in one go the replay is no stricter
  obtain ⟨account, hreplay, hagrees⟩ := hstart.run commands
  obtain ⟨ended, hflatten⟩ := Account.foldlM_flatten false id hreplay
  refine ⟨⟨account, hreplay, hagrees⟩, ⟨_, hflatten, hagrees.withEnded ended⟩, ?_⟩
  intro name dt
  exact ⟨last.approachLogged_fst name dt, (last.approachLogged_quiet name dt).2⟩

/-- A visit to the porch: a node is left by a choice, and the player leaves on the next one. -/
theorem replay_of_run_visit :
    ∃ world, create (Character.ofName "Morticia") {} porch twoRooms = .ok world ∧
      (world.run visit).2 =
        [[.dialogueStarted ⟨1⟩ "Guard" "gate"], [.itemGained "key", .dialogueAdvanced "hall"],
          [.dialogueEnded ⟨1⟩ "hall" .cancelled, .chapterAdvanced "arrival" "courtyard"]] ∧
      ∃ account, (Account.start "arrival").replay (world.run visit).2 = some account ∧
        account.Agrees (world.run visit).1.plot := by
  have hcheck : (create (Character.ofName "Morticia") {} porch twoRooms).toOption.any
      (fun world => (world.run visit).2 ==
        [[.dialogueStarted ⟨1⟩ "Guard" "gate"], [.itemGained "key", .dialogueAdvanced "hall"],
          [.dialogueEnded ⟨1⟩ "hall" .cancelled, .chapterAdvanced "arrival" "courtyard"]]) =
      true := by decide +kernel
  obtain ⟨world, hworld, hticks⟩ := exists_created hcheck
  exact ⟨world, hworld, beq_iff_eq.1 hticks, (replay_of_run hworld visit).1⟩

end Sidescroller.World
