import Sidescroller.Level.Trigger
import Sidescroller.Proofs.Binary32.Sign

/-!
# The trigger waits out its cooldown

A trigger that has found somebody has to wait for its cooldown. Time that passes is taken off, and
what is left never goes below zero, so the wait is over when it is zero. Attempts in the meantime
find nobody, and do not prolong the wait.

All this is about numbers of binary32: each difference is rounded, so the time that is left is what
the differences make of the cooldown one after the other, and not the cooldown less a sum of times.

* `Call` — the two calls that change a trigger, `play` — calls one after the other;
* `remainder` — what times that pass leave of a wait;
* `Settled`, `Settled.play` — the wait is between zero and the cooldown, after any calls;
* `Attempts`, `attempts` — what an attempt to talk does;
* `play_of_remainder_pos` — as long as something is left, calls find nobody;
* `remaining_play_of_quiet` — as long as calls find nobody, the remainder is what is left.
-/

namespace Sidescroller.Trigger

open Binary32 (greater)

variable {trigger : Trigger} {wait dt : Float32}

/-! ### Calls -/

/-- What changes a trigger. -/
inductive Call where
  /-- Time passes. -/
  | tick (dt : Float32)
  /-- Somebody wants to talk. -/
  | fire (player : Rect) (npcs : List Npc) (busy : Bool)

namespace Call

/-- Makes a call. Returns the trigger after it, and who was found. -/
def perform (trigger : Trigger) : Call → Trigger × Option Npc
  | tick dt => (trigger.tick dt, none)
  | fire player npcs busy => trigger.fire player npcs busy

/-- The time that passes in a call, if it is there for that. -/
def elapsed? : Call → Option Float32
  | tick dt => some dt
  | fire _ _ _ => none

/-- Time does not go back. -/
def Forward (call : Call) : Prop := ∀ dt, call.elapsed? = some dt → 0 ≤ dt

end Call

/-- Makes calls one after the other. Returns the trigger after them, and who was found. -/
def play (trigger : Trigger) : List Call → Trigger × List Npc
  | [] => (trigger, [])
  | call :: rest =>
    let (next, npc?) := call.perform trigger
    let (last, npcs) := next.play rest
    (last, npc?.toList ++ npcs)

theorem play_cons (trigger : Trigger) (call : Call) (rest : List Call) :
    trigger.play (call :: rest) =
      (((call.perform trigger).1.play rest).1,
        (call.perform trigger).2.toList ++ ((call.perform trigger).1.play rest).2) := rfl

theorem play_append (trigger : Trigger) (first second : List Call) :
    trigger.play (first ++ second) =
      (((trigger.play first).1.play second).1,
        (trigger.play first).2 ++ ((trigger.play first).1.play second).2) := by
  induction first generalizing trigger with
  | nil => rfl
  | cons call rest ih =>
    rw [List.cons_append, play_cons, ih, play_cons, List.append_assoc]

/-! ### What is left of a wait -/

/-- **What is left of a wait** when times have passed. It stops at zero after each of them. -/
def remainder (wait : Float32) (times : List Float32) : Float32 :=
  times.foldl (fun left dt => greater (left - dt) 0) wait

theorem remainder_cons (wait dt : Float32) (times : List Float32) :
    remainder wait (dt :: times) = remainder (greater (wait - dt) 0) times := rfl

/-- What is left is not below zero, even where the difference is no number. -/
theorem zero_le_greater (x : Float32) : 0 ≤ greater x 0 := by
  obtain ⟨hnan, hle⟩ := (Binary32.greater_atLeast x 0).2 Binary32.isNaN_zero
  exact Binary32.le_iff.2 ⟨Binary32.isNaN_zero, hnan, hle⟩

/-- Time that passes does not prolong a wait. -/
theorem greater_sub_le (hwait : 0 ≤ wait) (hdt : 0 ≤ dt) : greater (wait - dt) 0 ≤ wait := by
  obtain ⟨-, hnan⟩ := Binary32.isNaN_of_le hwait
  obtain ⟨-, hleft⟩ := Binary32.isNaN_of_le (zero_le_greater (wait - dt))
  -- what is left is the rounded difference, which is a number then, or zero
  rcases Binary32.greater_eq_or (wait - dt) 0 with h | h
  · rw [h] at hleft ⊢
    exact (Binary32.le_iff_not_lt hleft hnan).2 (Binary32.not_lt_sub hdt wait)
  · rw [h]
    exact hwait

theorem remainder_le {times : List Float32} (hwait : 0 ≤ wait) (htimes : ∀ dt ∈ times, 0 ≤ dt) :
    remainder wait times ≤ wait := by
  induction times generalizing wait with
  | nil => exact Binary32.le_refl (Binary32.isNaN_of_le hwait).2
  | cons dt times ih =>
    obtain ⟨hdt, htimes⟩ := List.forall_mem_cons.1 htimes
    exact Binary32.le_trans (ih (zero_le_greater _) htimes) (greater_sub_le hwait hdt)

/-- The times that pass in calls. -/
def times (calls : List Call) : List Float32 := calls.filterMap Call.elapsed?

theorem times_tick (dt : Float32) (rest : List Call) :
    times (.tick dt :: rest) = dt :: times rest := rfl

theorem times_fire (player : Rect) (npcs : List Npc) (busy : Bool) (rest : List Call) :
    times (.fire player npcs busy :: rest) = times rest := rfl

theorem times_append (first second : List Call) :
    times (first ++ second) = times first ++ times second := List.filterMap_append

theorem zero_le_of_mem_times {calls : List Call} (h : ∀ call ∈ calls, call.Forward) :
    ∀ dt ∈ times calls, 0 ≤ dt := by
  intro dt hdt
  obtain ⟨call, hcall, helapsed⟩ := List.mem_filterMap.1 hdt
  exact h call hcall dt helapsed

/-! ### One attempt -/

/-- **What an attempt to talk does.** -/
structure Attempts (trigger : Trigger) (player : Rect) (npcs : List Npc) (busy : Bool) : Prop where
  /-- Somebody is found exactly if no conversation is open, the wait is over, and somebody is within
  reach. -/
  found_iff : (trigger.fire player npcs busy).2.isSome = true ↔
    busy = false ∧ (trigger.remaining == 0) = true ∧
      ∃ npc ∈ npcs, player.overlaps (trigger.reach npc) = true
  /-- It is the first one within reach. -/
  first : ∀ npc, (trigger.fire player npcs busy).2 = some npc →
    ∃ before after, npcs = before ++ npc :: after ∧
      player.overlaps (trigger.reach npc) = true ∧
      ∀ other ∈ before, player.overlaps (trigger.reach other) = false
  /-- Then the whole cooldown begins. -/
  rests : ∀ npc, (trigger.fire player npcs busy).2 = some npc →
    (trigger.fire player npcs busy).1 = { trigger with remaining := trigger.rules.cooldown }
  /-- If nobody is found, nothing happens. -/
  untouched : (trigger.fire player npcs busy).2 = none →
    (trigger.fire player npcs busy).1 = trigger

/-- A trigger is ready when nothing is left of its wait. -/
theorem ready_iff (h : 0 ≤ trigger.remaining) :
    trigger.ready = true ↔ (trigger.remaining == 0) = true := by
  obtain ⟨-, hnan, hval⟩ := Binary32.le_iff.1 h
  rw [ready, decide_eq_true_iff, Binary32.le_iff, Binary32.beq_iff]
  rw [Binary32.value_zero] at hval ⊢
  constructor
  · rintro ⟨-, -, hle⟩
    exact ⟨hnan, Binary32.isNaN_zero, Int.le_antisymm hle hval⟩
  · rintro ⟨-, -, heq⟩
    exact ⟨hnan, Binary32.isNaN_zero, heq.le⟩

theorem fire_of_not (player : Rect) (npcs : List Npc) {busy : Bool}
    (h : ¬ (busy = false ∧ trigger.ready = true)) :
    trigger.fire player npcs busy = (trigger, none) := by
  unfold fire
  cases busy with
  | true => rfl
  | false =>
    have hready : trigger.ready = false := Bool.eq_false_iff.2 fun hready => h ⟨rfl, hready⟩
    rw [hready]
    rfl

/-- Somebody is found, and the cooldown begins, or nothing happens. -/
theorem fire_cases (trigger : Trigger) (player : Rect) (npcs : List Npc) (busy : Bool) :
    trigger.fire player npcs busy = (trigger, none) ∧
        ¬ (busy = false ∧ trigger.ready = true ∧
          ∃ npc ∈ npcs, player.overlaps (trigger.reach npc) = true) ∨
      ∃ npc, trigger.fire player npcs busy =
          ({ trigger with remaining := trigger.rules.cooldown }, some npc) ∧
        busy = false ∧ trigger.ready = true ∧ trigger.nearby? player npcs = some npc := by
  by_cases hmay : busy = false ∧ trigger.ready = true
  · obtain ⟨rfl, hready⟩ := hmay
    unfold fire
    rw [hready, Bool.not_true, Bool.or_false, if_neg Bool.false_ne_true]
    cases hnear : trigger.nearby? player npcs with
    | none =>
      refine Or.inl ⟨rfl, ?_⟩
      rintro ⟨-, -, npc, hnpc, hreach⟩
      exact List.find?_eq_none.1 hnear npc hnpc hreach
    | some npc => exact Or.inr ⟨npc, rfl, rfl, rfl, rfl⟩
  · refine Or.inl ⟨fire_of_not player npcs hmay, ?_⟩
    rintro ⟨hbusy, hready, -⟩
    exact hmay ⟨hbusy, hready⟩

/-- The trigger finds somebody only if nothing is open, and only characters of the level. -/
theorem of_fire {trigger' : Trigger} {player : Rect} {npcs : List Npc} {busy : Bool} {npc : Npc}
    (h : trigger.fire player npcs busy = (trigger', some npc)) : busy = false ∧ npc ∈ npcs := by
  rcases trigger.fire_cases player npcs busy with ⟨hfire, -⟩ | ⟨other, hfire, hbusy, -, hnear⟩
  · cases hfire.symm.trans h
  · obtain ⟨-, hnpc⟩ := Prod.mk.inj (hfire.symm.trans h)
    obtain rfl := Option.some.inj hnpc
    exact ⟨hbusy, List.mem_of_find?_eq_some hnear⟩

/-- **An attempt** of a trigger whose wait is not below zero. -/
theorem attempts (h : 0 ≤ trigger.remaining) (player : Rect) (npcs : List Npc) (busy : Bool) :
    trigger.Attempts player npcs busy := by
  rcases trigger.fire_cases player npcs busy with
    ⟨hfire, hnot⟩ | ⟨npc, hfire, hbusy, hready, hnear⟩
  · -- nobody is found, for one of the three reasons
    rw [ready_iff h] at hnot
    constructor
    · rw [hfire]
      exact iff_of_false Bool.false_ne_true hnot
    · rw [hfire]
      exact nofun
    · rw [hfire]
      exact nofun
    · rw [hfire]
      exact fun _ => rfl
  · -- who is found is the first within reach
    obtain ⟨hreach, before, after, hnpcs, hbefore⟩ := List.find?_eq_some_iff_append.1 hnear
    constructor
    · rw [hfire]
      exact iff_of_true rfl
        ⟨hbusy, (ready_iff h).1 hready, npc, List.mem_of_find?_eq_some hnear, hreach⟩
    · rw [hfire]
      intro other hother
      obtain rfl := Option.some.inj hother
      refine ⟨before, after, hnpcs, hreach, ?_⟩
      intro other hmem
      rw [← Bool.not_eq_true']
      exact hbefore other hmem
    · rw [hfire]
      exact fun _ _ => rfl
    · rw [hfire]
      exact nofun

/-! ### Runs of calls -/

/-- **The wait is settled**: it is between zero and the cooldown. -/
structure Settled (rules : Rules.Interaction) (trigger : Trigger) : Prop where
  rules_eq : trigger.rules = rules
  zero_le : 0 ≤ trigger.remaining
  le_cooldown : trigger.remaining ≤ rules.cooldown

section Settled

variable {rules : Rules.Interaction}

theorem Settled.ofRules (h : 0 ≤ rules.cooldown) : (Trigger.ofRules rules).Settled rules where
  rules_eq := rfl
  zero_le := Binary32.le_refl Binary32.isNaN_zero
  le_cooldown := h

/-- **One call** keeps the wait settled. -/
theorem Settled.perform (h : trigger.Settled rules) (hcooldown : 0 ≤ rules.cooldown) {call : Call}
    (hforward : call.Forward) : (call.perform trigger).1.Settled rules := by
  cases call with
  | tick dt =>
    exact ⟨h.rules_eq, zero_le_greater _,
      Binary32.le_trans (greater_sub_le h.zero_le (hforward dt rfl)) h.le_cooldown⟩
  | fire player npcs busy =>
    have hattempts := attempts h.zero_le player npcs busy
    show (trigger.fire player npcs busy).1.Settled rules
    cases hfound : (trigger.fire player npcs busy).2 with
    | none =>
      rw [hattempts.untouched hfound]
      exact h
    | some npc =>
      rw [hattempts.rests npc hfound, h.rules_eq]
      exact ⟨rfl, hcooldown, Binary32.le_refl (Binary32.isNaN_of_le hcooldown).2⟩

/-- **Calls** keep the wait settled. -/
theorem Settled.play (h : trigger.Settled rules) (hcooldown : 0 ≤ rules.cooldown)
    {calls : List Call} (hforward : ∀ call ∈ calls, call.Forward) :
    (trigger.play calls).1.Settled rules := by
  induction calls generalizing trigger with
  | nil => exact h
  | cons call rest ih =>
    obtain ⟨hcall, hrest⟩ := List.forall_mem_cons.1 hforward
    exact ih (h.perform hcooldown hcall) hrest

end Settled

/-! ### The wait after somebody was found -/

/-- **As long as something is left** of the wait, nobody is found. -/
theorem play_of_remainder_pos {calls : List Call} (hwait : 0 ≤ trigger.remaining)
    (hforward : ∀ call ∈ calls, call.Forward)
    (hleft : 0 < remainder trigger.remaining (times calls)) : (trigger.play calls).2 = [] := by
  induction calls generalizing trigger with
  | nil => rfl
  | cons call rest ih =>
    obtain ⟨hcall, hrest⟩ := List.forall_mem_cons.1 hforward
    cases call with
    | tick dt =>
      rw [times_tick, remainder_cons] at hleft
      exact ih (zero_le_greater _) hrest hleft
    | fire player npcs busy =>
      rw [times_fire] at hleft
      -- what is left later is left now
      have hnow : 0 < trigger.remaining :=
        Binary32.lt_of_lt_of_le hleft (remainder_le hwait (zero_le_of_mem_times hrest))
      have hready : ¬ trigger.ready = true := by
        rw [ready_iff hwait, (Binary32.beq_eq_false_of_lt hnow).2]
        exact Bool.false_ne_true
      have hfire : trigger.fire player npcs busy = (trigger, none) :=
        fire_of_not player npcs fun h => hready h.2
      rw [play_cons, Call.perform, hfire]
      exact ih hwait hrest hleft

/-- **As long as nobody is found**, the wait is what is left of it. -/
theorem remaining_play_of_quiet {calls : List Call} (hwait : 0 ≤ trigger.remaining)
    (hquiet : (trigger.play calls).2 = []) :
    (trigger.play calls).1.remaining = remainder trigger.remaining (times calls) := by
  induction calls generalizing trigger with
  | nil => rfl
  | cons call rest ih =>
    rw [play_cons] at hquiet
    -- nobody is found in the first call, nor in the later ones
    obtain ⟨hfirst, hlater⟩ := List.append_eq_nil_iff.1 hquiet
    cases call with
    | tick dt =>
      have hwait' : 0 ≤ (trigger.tick dt).remaining := zero_le_greater _
      rw [times_tick, remainder_cons]
      exact ih hwait' hlater
    | fire player npcs busy =>
      have hnone : (trigger.fire player npcs busy).2 = none := Option.toList_eq_nil_iff.1 hfirst
      have hsame := (attempts hwait player npcs busy).untouched hnone
      rw [Call.perform, hsame] at hlater
      rw [play_cons, Call.perform, hsame, times_fire]
      exact ih hwait hlater

end Sidescroller.Trigger
