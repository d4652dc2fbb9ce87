import Sidescroller.Proofs.World.Coherence
import Sidescroller.Proofs.World.Flight

/-!
# Nobody is talked to twice within the cooldown

A world makes calls to its trigger: in each tick its time goes on, be it in a conversation or not,
and outside of conversations there may be an attempt to talk. Who is found by these calls is who the
events of the run offer, whether a conversation begins or there was nothing to say. So what the
trigger does after any calls says when offers can follow each other, and how a conversation ended
does not matter.

* `calls` — the calls that moves make to the trigger; `play_calls` — they do to it what the moves
  do, and find who is offered;
* `times` — the times that pass in commands;
* `offers_of_remainder_pos` — as long as something is left of the cooldown, nobody is offered;
* `cooldown_between_offers` — the cooldown of a trigger, and what it means for the runs of a world.
-/

namespace Sidescroller

/-- What an offer says of somebody. -/
def Npc.offer (npc : Npc) : String × String := (npc.name, npc.entry)

namespace World

variable {world : World} {command : Command} {commands path : List Command}

/-! ### Calls to the trigger -/

/-- The offers among events. -/
def offers (events : List Event) : List (String × String) := events.filterMap Event.offer?

/-- The attempt to talk that is made in a tick, if there is one. -/
def attempt (world : World) (intent : Intent) (dt : Float32) : List Trigger.Call :=
  if world.inDialogue = false ∧ intent.interact = true then
    [.fire (world.moved intent dt).body.rect world.level.npcs false]
  else []

/-- The calls that a move makes to the trigger. -/
def callsOf (world : World) : Command → List Trigger.Call
  | .tick intent dt => .tick dt :: world.attempt intent dt
  | .place _ => []
  | .approach _ _ => []

/-- The calls that moves make to the trigger. -/
def calls (world : World) : List Command → List Trigger.Call
  | [] => []
  | command :: rest => world.callsOf command ++ (world.perform command).1.calls rest

theorem offers_append (first second : List Event) :
    offers (first ++ second) = offers first ++ offers second := List.filterMap_append

theorem offers_eq_nil {events : List Event} (h : ∀ event ∈ events, event.offer? = none) :
    offers events = [] := List.filterMap_eq_nil_iff.2 h

/-- Whoever is found is offered. -/
theorem openDialogue_fire (world : World) :
    let fired := world.trigger.fire world.body.rect world.level.npcs world.inDialogue
    world.openDialogue.1.trigger = fired.1 ∧
      offers world.openDialogue.2 = fired.2.toList.map Npc.offer := by
  unfold openDialogue
  dsimp only
  cases world.trigger.fire world.body.rect world.level.npcs world.inDialogue with
  | mk trigger npc? =>
    cases npc? with
    | none => exact ⟨rfl, rfl⟩
    | some npc =>
      dsimp only
      cases world.session.start world.graph npc.entry with
      | mk session answer =>
        cases answer with
        | ok conversation => exact ⟨rfl, rfl⟩
        | error error => exact ⟨rfl, rfl⟩

theorem play_attempt (world : World) (intent : Intent) (dt : Float32) :
    let played := (world.trigger.tick dt).play (world.attempt intent dt)
    (world.tick intent dt).1.trigger = played.1 ∧
      offers (world.tick intent dt).2 = played.2.map Npc.offer := by
  cases hmode : world.inDialogue with
  | true =>
    -- nobody is offered during a conversation
    have hquiet : offers (world.tick intent dt).2 = [] := by
      cases hcursor : world.session.cursor with
      | idle => cases hmode.symm.trans (inDialogue_eq_false_iff.2 hcursor)
      | active conversation id =>
        exact offers_eq_nil ((world.tick_happens intent dt).offer?_eq_none hcursor)
    have hattempt : world.attempt intent dt = [] :=
      if_neg fun h => Bool.false_ne_true (h.1.symm.trans hmode)
    rw [hattempt, hquiet, tick_of_inDialogue hmode]
    exact ⟨rfl, rfl⟩
  | false =>
    rw [tick_of_idle hmode]
    by_cases hinteract : intent.interact = true
    · have hmode' : (world.moved intent dt).inDialogue = false := hmode
      have hattempt : world.attempt intent dt =
          [.fire (world.moved intent dt).body.rect (world.moved intent dt).level.npcs
            (world.moved intent dt).inDialogue] := by
        rw [attempt, if_pos ⟨hmode, hinteract⟩, hmode']
        rfl
      rw [if_pos hinteract, hattempt]
      dsimp only
      -- by the time of the attempt the body has moved, and the time of the trigger has gone on
      rw [Trigger.play_cons, Trigger.play, List.append_nil]
      exact (world.moved intent dt).openDialogue_fire
    · have hattempt : world.attempt intent dt = [] := if_neg fun h => hinteract h.2
      rw [if_neg hinteract, hattempt]
      exact ⟨rfl, rfl⟩

/-- **One move** does to the trigger what its calls do, and offers whom they find. -/
theorem play_callsOf (world : World) (hmove : command.IsMove) :
    (world.perform command).1.trigger = (world.trigger.play (world.callsOf command)).1 ∧
      offers ((world.perform command).2.getD []) =
        (world.trigger.play (world.callsOf command)).2.map Npc.offer := by
  cases hmove with
  | tick intent hdt => exact world.play_attempt intent _
  | place position =>
    refine ⟨?_, rfl⟩
    show (world.place position).trigger = world.trigger
    unfold place
    split_ifs
    · rfl
    · rfl

/-- **Moves** do to the trigger what their calls do, and offer whom they find. -/
theorem play_calls (world : World) (hpath : ∀ command ∈ path, command.IsMove) :
    (world.run path).1.trigger = (world.trigger.play (world.calls path)).1 ∧
      offers (world.run path).2.flatten =
        (world.trigger.play (world.calls path)).2.map Npc.offer := by
  -- after each move the world and its trigger, which is played by itself, are at the same point
  induction path generalizing world with
  | nil => exact ⟨rfl, rfl⟩
  | cons command rest ih =>
    obtain ⟨hfirst, hrest⟩ := List.forall_mem_cons.1 hpath
    obtain ⟨htrigger, hoffers⟩ := world.play_callsOf hfirst
    obtain ⟨hlast, hlater⟩ := ih (world.perform command).1 hrest
    rw [calls, Trigger.play_append, events_run_cons, offers_append, List.map_append, hoffers,
      hlater, htrigger]
    refine ⟨?_, rfl⟩
    rw [← htrigger]
    exact hlast

theorem forward_of_mem_calls (hpath : ∀ command ∈ path, command.IsMove) :
    ∀ call ∈ world.calls path, call.Forward := by
  induction path generalizing world with
  | nil => exact nofun
  | cons command rest ih =>
    obtain ⟨hfirst, hrest⟩ := List.forall_mem_cons.1 hpath
    intro call hcall
    rcases List.mem_append.1 hcall with hcall | hcall
    · cases hfirst with
      | @tick intent dt hdt =>
        rcases List.mem_cons.1 hcall with rfl | hcall
        · intro dt' heq
          obtain rfl := Option.some.inj heq
          exact hdt
        · unfold attempt at hcall
          split_ifs at hcall
          · obtain rfl := List.mem_singleton.1 hcall
            exact nofun
          · cases hcall
      | place position => cases hcall
    · exact ih hrest call hcall

/-! ### Times -/

/-- The time that passes in a move. -/
def Command.elapsed? : Command → Option Float32
  | .tick _ dt => some dt
  | .place _ => none
  | .approach _ _ => none

/-- **The times that pass in commands**, also in the ticks of an approach. -/
def times (world : World) (commands : List Command) : List Float32 :=
  (world.moves commands).filterMap Command.elapsed?

theorem times_attempt (world : World) (intent : Intent) (dt : Float32) :
    Trigger.times (world.attempt intent dt) = [] := by
  unfold attempt
  split_ifs
  · rfl
  · rfl

theorem times_calls (hpath : ∀ command ∈ path, command.IsMove) :
    Trigger.times (world.calls path) = path.filterMap Command.elapsed? := by
  induction path generalizing world with
  | nil => rfl
  | cons command rest ih =>
    obtain ⟨hfirst, hrest⟩ := List.forall_mem_cons.1 hpath
    rw [calls, Trigger.times_append, ih hrest]
    cases hfirst with
    | tick intent hdt =>
      rw [callsOf, Trigger.times_tick, times_attempt, List.filterMap_cons]
      rfl
    | place position => rfl

/-! ### The events of moves -/

theorem events_settleMoves (world : World) (reach : Rect) (dt : Float32) (positions : List Vec2) :
    (world.run (world.settleMoves reach dt positions)).2.flatten = [] := by
  induction positions generalizing world with
  | nil => rfl
  | cons position positions ih =>
    unfold settleMoves
    split_ifs with hmode
    · rfl
    · have hplaced : (world.place position).inDialogue = false :=
        (world.inDialogue_place position).trans (Bool.not_eq_true _ ▸ hmode)
      dsimp only
      rw [events_run_cons, events_run_cons]
      dsimp only [perform]
      rw [(tick_idle_quiet hplaced dt).2]
      split_ifs with hreach
      · rfl
      · exact ih _

/-- **Moves have the events of their commands**: the ticks of an approach have none. -/
theorem events_moves (world : World) (commands : List Command) :
    (world.run (world.moves commands)).2.flatten = (world.run commands).2.flatten := by
  induction commands generalizing world with
  | nil => rfl
  | cons command rest ih =>
    have hfirst : (world.run (world.movesOf command)).2.flatten =
        (world.perform command).2.getD [] := by
      cases command with
      | tick intent dt => exact List.append_nil _
      | place position => rfl
      | approach name dt =>
        show (world.run (world.approachMoves name dt)).2.flatten = []
        unfold approachMoves
        cases world.level.npc? name with
        | none => rfl
        | some npc => exact world.events_settleMoves _ dt _
    rw [moves, events_run_append, List.flatten_append, run_movesOf, ih, hfirst, events_run_cons]

/-! ### Offers of a run -/

/-- **Commands** do to the trigger what the calls of their moves do, and offer whom they find. -/
theorem play_calls_moves (world : World)
    (hforward : ∀ command ∈ commands, command.Forward) :
    (world.run commands).1.trigger =
        (world.trigger.play (world.calls (world.moves commands))).1 ∧
      offers (world.run commands).2.flatten =
        (world.trigger.play (world.calls (world.moves commands))).2.map Npc.offer := by
  have hpath : ∀ command ∈ world.moves commands, command.IsMove := isMove_of_mem_moves hforward
  have hplayed := world.play_calls hpath
  rw [run_moves, events_moves] at hplayed
  exact hplayed

theorem trigger_of_create {character : Character} {rules : Rules} {level : Level}
    {script : Story.Script} (h : create character rules level script = .ok world) :
    world.trigger = Trigger.ofRules rules.interaction := by
  obtain ⟨graph, chapters, camera, -, -, rfl⟩ := eq_of_create h
  rfl

/-- The wait of a world is settled at any moment. -/
theorem settled_run {interaction : Rules.Interaction}
    (h : world.trigger.Settled interaction) (hcooldown : 0 ≤ interaction.cooldown)
    (hforward : ∀ command ∈ commands, command.Forward) :
    (world.run commands).1.trigger.Settled interaction := by
  rw [(world.play_calls_moves hforward).1]
  exact h.play hcooldown (forward_of_mem_calls (isMove_of_mem_moves hforward))

/-- **A tick with an offer** has one, and begins the cooldown. -/
theorem rests_of_offers {intent : Intent} {dt : Float32}
    (h : offers (world.tick intent dt).2 ≠ []) :
    (offers (world.tick intent dt).2).length = 1 ∧
      (world.tick intent dt).1.trigger.remaining = world.trigger.rules.cooldown := by
  obtain ⟨htrigger, hoffers⟩ := world.play_attempt intent dt
  rw [hoffers] at h ⊢
  rw [htrigger]
  unfold attempt at h ⊢
  split_ifs at h ⊢
  · -- one attempt is made, after the tick of the trigger
    rw [Trigger.play_cons, Trigger.play, Trigger.Call.perform, List.append_nil, List.length_map]
      at *
    have hwait : 0 ≤ (world.trigger.tick dt).remaining := Trigger.zero_le_greater _
    have hattempts :=
      Trigger.attempts hwait (world.moved intent dt).body.rect world.level.npcs false
    cases hfound : ((world.trigger.tick dt).fire (world.moved intent dt).body.rect
        world.level.npcs false).2 with
    | none =>
      rw [hfound] at h
      exact absurd rfl h
    | some npc =>
      rw [hattempts.rests npc hfound]
      exact ⟨rfl, rfl⟩
  · exact absurd rfl h

/-- **As long as something is left** of the wait, nobody is offered. -/
theorem offers_of_remainder_pos (hwait : 0 ≤ world.trigger.remaining)
    (hforward : ∀ command ∈ commands, command.Forward)
    (hleft : 0 < Trigger.remainder world.trigger.remaining (world.times commands)) :
    offers (world.run commands).2.flatten = [] := by
  have hpath : ∀ command ∈ world.moves commands, command.IsMove := isMove_of_mem_moves hforward
  rw [times, ← times_calls hpath] at hleft
  rw [(world.play_calls_moves hforward).2,
    Trigger.play_of_remainder_pos hwait (forward_of_mem_calls hpath) hleft]
  rfl

/-- **As long as nobody is offered**, the wait is what is left of it. -/
theorem remaining_run_of_quiet (hwait : 0 ≤ world.trigger.remaining)
    (hforward : ∀ command ∈ commands, command.Forward)
    (hquiet : offers (world.run commands).2.flatten = []) :
    (world.run commands).1.trigger.remaining =
      Trigger.remainder world.trigger.remaining (world.times commands) := by
  have hpath : ∀ command ∈ world.moves commands, command.IsMove := isMove_of_mem_moves hforward
  obtain ⟨htrigger, hoffers⟩ := world.play_calls_moves hforward
  rw [hoffers, List.map_eq_nil_iff] at hquiet
  rw [htrigger, times, ← times_calls hpath]
  exact Trigger.remaining_play_of_quiet hwait hquiet

/-- **The cooldown between offers.** Let the cooldown be a number that is not below zero, and let
time not go back. After any calls to a trigger, what is left of its wait is between zero and the
cooldown, and time that passes does not make it more. An attempt to talk finds somebody exactly if
no conversation is open, nothing is left of the wait, and somebody is within reach; it finds the
first such character, and the whole cooldown begins. An attempt that finds nobody does nothing.

After somebody was found, as long as something is left of the cooldown, whatever is called finds
nobody, and as long as nobody is found, the wait is what is left of it. The same holds in the runs
of a world after a tick that offers somebody, be it that a conversation begins or that there was
nothing to say: as long as something is left of the cooldown, nobody is offered, no matter how the
conversation went on or ended. -/
theorem cooldown_between_offers {interaction : Rules.Interaction}
    (hcooldown : 0 ≤ interaction.cooldown) :
    (∀ calls : List Trigger.Call, (∀ call ∈ calls, call.Forward) →
      let trigger := ((Trigger.ofRules interaction).play calls).1
      trigger.Settled interaction ∧
      (∀ dt, 0 ≤ dt → (trigger.tick dt).remaining ≤ trigger.remaining) ∧
      ∀ player npcs busy, trigger.Attempts player npcs busy ∧
        ∀ npc, (trigger.fire player npcs busy).2 = some npc →
          ∀ later : List Trigger.Call, (∀ call ∈ later, call.Forward) →
            let played := (trigger.fire player npcs busy).1.play later
            let left := Trigger.remainder interaction.cooldown (Trigger.times later)
            (0 < left → played.2 = []) ∧ (played.2 = [] → played.1.remaining = left)) ∧
    ∀ character rules level script world, rules.interaction = interaction →
      create character rules level script = .ok world →
      ∀ before : List Command, (∀ command ∈ before, command.Forward) →
        (world.run before).1.trigger.Settled interaction ∧
        ∀ intent dt,
          let tick := (world.run before).1.tick intent dt
          offers tick.2 ≠ [] →
          (offers tick.2).length = 1 ∧
          ∀ later : List Command, (∀ command ∈ later, command.Forward) →
            let run := tick.1.run later
            let left := Trigger.remainder interaction.cooldown (tick.1.times later)
            (0 < left → offers run.2.flatten = []) ∧
            (offers run.2.flatten = [] → run.1.trigger.remaining = left) := by
  have hstart := Trigger.Settled.ofRules hcooldown
  constructor
  · -- a trigger on its own, after any calls
    intro calls hcalls trigger
    have hsettled : trigger.Settled interaction := hstart.play hcooldown hcalls
    refine ⟨hsettled, fun dt hdt => Trigger.greater_sub_le hsettled.zero_le hdt, ?_⟩
    intro player npcs busy
    have hattempts := Trigger.attempts hsettled.zero_le player npcs busy
    refine ⟨hattempts, ?_⟩
    intro npc hnpc later hlater played left
    -- a match leaves the whole cooldown, which what comes later counts from
    have hrests : (trigger.fire player npcs busy).1.remaining = interaction.cooldown := by
      rw [hattempts.rests npc hnpc, hsettled.rules_eq]
    have hwait : 0 ≤ (trigger.fire player npcs busy).1.remaining := hrests.symm ▸ hcooldown
    constructor
    · -- too early: the trigger is never ready
      intro hleft
      exact Trigger.play_of_remainder_pos hwait hlater (hrests.symm ▸ hleft)
    · -- without a match the wait is only counted down
      intro hquiet
      exact (Trigger.remaining_play_of_quiet hwait hquiet).trans (by rw [hrests])
  · -- a world: its run is one of its trigger, with the events of the matches
    rintro character rules level script world rfl hcreate before hbefore
    have hsettled : (world.run before).1.trigger.Settled rules.interaction :=
      settled_run (trigger_of_create hcreate ▸ hstart) hcooldown hbefore
    refine ⟨hsettled, ?_⟩
    intro intent dt tick hoffers
    -- an offer is a match, whether a conversation came of it or not
    obtain ⟨hone, hrests⟩ := rests_of_offers hoffers
    rw [hsettled.rules_eq] at hrests
    have hwait : 0 ≤ tick.1.trigger.remaining := hrests.symm ▸ hcooldown
    refine ⟨hone, ?_⟩
    intro later hlater run left
    constructor
    · intro hleft
      exact offers_of_remainder_pos hwait hlater (hrests.symm ▸ hleft)
    · intro hquiet
      exact (remaining_run_of_quiet hwait hlater hquiet).trans (by rw [hrests])

/-- A conversation is left at once, and asked for again after a moment, and after half a second. -/
theorem cooldown_between_offers_left_at_once :
    0 ≤ ({} : Rules).interaction.cooldown ∧
    ∃ world, create (Character.ofName "Morticia") {} porch twoRooms = .ok world ∧
      let tick := world.tick { interact := true } 0.01
      let run := tick.1.run [.tick { cancel := true } 0.01, .tick { interact := true } 0.01]
      (offers tick.2).length = 1 ∧ run.1.inDialogue = false ∧ offers run.2.flatten = [] ∧
      offers (tick.1.run
        [.tick { cancel := true } 0.5, .tick { interact := true } 0.01]).2.flatten =
          [("Guard", "gate")] := by
  have hcheck : (create (Character.ofName "Morticia") {} porch twoRooms).toOption.any
      (fun world =>
        let tick := world.tick { interact := true } 0.01
        let later := [.tick { cancel := true } 0.01, .tick { interact := true } 0.01]
        offers tick.2 ≠ [] ∧ (tick.1.run later).1.inDialogue = false ∧
          0 < Trigger.remainder ({} : Rules).interaction.cooldown (tick.1.times later) ∧
          offers (tick.1.run
            [.tick { cancel := true } 0.5, .tick { interact := true } 0.01]).2.flatten =
              [("Guard", "gate")]) = true := by
    decide +kernel
  obtain ⟨world, hworld, hp⟩ := exists_created hcheck
  obtain ⟨hoffers, hidle, hleft, hagain⟩ := of_decide_eq_true hp
  have hcooldown : 0 ≤ ({} : Rules).interaction.cooldown := by decide
  obtain ⟨-, hrun⟩ := cooldown_between_offers hcooldown
  obtain ⟨-, htick⟩ := hrun (Character.ofName "Morticia") {} porch twoRooms world rfl hworld []
    (List.forall_mem_nil _)
  obtain ⟨hone, hlater⟩ := htick { interact := true } 0.01 hoffers
  have hforward : ∀ command ∈ [Command.tick { cancel := true } 0.01,
      .tick { interact := true } 0.01], command.Forward := by
    decide
  exact ⟨hcooldown, world, hworld, hone, hidle, (hlater _ hforward).1 hleft, hagain⟩

end World

end Sidescroller
