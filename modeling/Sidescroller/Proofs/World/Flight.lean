import Sidescroller.Proofs.Player.Flight
import Sidescroller.Proofs.World.Focus
import Sidescroller.Proofs.World.Suspension

/-!
# Nobody jumps in mid-air

A run is told by its moves: ticks and placements, of which every command is made. A player who did
not rise before a move rises after it only if the move is a tick outside of conversations in which a
jump is pressed and the player stands. And a player stands exactly if the last tick outside of
conversations was a landing, and was not followed by a placement.

* `moves` — the ticks and placements that commands are made of; `after_moves` — they lead to the
  same worlds;
* `velocity_perform_le`, `jumps_of_rise`, `onGround_perform_iff` — one move;
* `velocity_after_le`, `jumpsAt_of_launchesAt`, `onGround_after_iff` — the moves of a run;
* `vertical_speed_law` — what this means for the runs of a world.
-/

namespace Sidescroller.World

variable {world : World} {commands path : List Command} {command : Command} {n : Nat}

/-! ### Moves -/

/-- The placements and ticks in which the player is put to one position after the other. -/
def settleMoves (world : World) (reach : Rect) (dt : Float32) : List Vec2 → List Command
  | [] => []
  | position :: positions =>
    if world.inDialogue then []
    else
      let next := ((world.place position).tick Intent.idle dt).1
      .place position :: .tick Intent.idle dt ::
        if next.body.rect.overlaps reach then [] else next.settleMoves reach dt positions

/-- The placements and ticks of an approach. -/
def approachMoves (world : World) (name : String) (dt : Float32) : List Command :=
  match world.level.npc? name with
  | none => []
  | some npc => world.settleMoves (world.trigger.reach npc) dt (world.besides npc)

/-- The placements and ticks that a command is made of. -/
def movesOf (world : World) : Command → List Command
  | .tick intent dt => [.tick intent dt]
  | .place position => [.place position]
  | .approach name dt => world.approachMoves name dt

/-- The placements and ticks that commands are made of. -/
def moves (world : World) : List Command → List Command
  | [] => []
  | command :: rest => world.movesOf command ++ (world.perform command).1.moves rest

/-- The world after the first commands. -/
def after (world : World) (commands : List Command) (n : Nat) : World :=
  (world.run (commands.take n)).1

theorem after_succ_of_some (h : commands[n]? = some command) :
    world.after commands (n + 1) = ((world.after commands n).perform command).1 := by
  unfold after
  rw [List.take_add_one, run_append, h]
  rfl

theorem after_succ_of_none (h : commands[n]? = none) :
    world.after commands (n + 1) = world.after commands n := by
  unfold after
  rw [List.take_add_one, h, Option.toList_none, List.append_nil]

theorem run_settleMoves (world : World) (reach : Rect) (dt : Float32) (positions : List Vec2) :
    (world.run (world.settleMoves reach dt positions)).1 =
      (world.settleAmong reach dt positions).1 := by
  induction positions generalizing world with
  | nil => rfl
  | cons position positions ih =>
    unfold settleMoves settleAmong
    -- both look at the same world before they go on
    split_ifs with hmode
    · rfl
    · dsimp only
      split_ifs with hreach
      · rfl
      · exact ih _

theorem run_movesOf (world : World) (command : Command) :
    (world.run (world.movesOf command)).1 = (world.perform command).1 := by
  cases command with
  | tick intent dt => rfl
  | place position => rfl
  | approach name dt =>
    show (world.run (world.approachMoves name dt)).1 = (world.approach name dt).1
    unfold approachMoves approach
    cases world.level.npc? name with
    | none => rfl
    | some npc => exact world.run_settleMoves _ dt _

theorem moves_append (world : World) (first second : List Command) :
    world.moves (first ++ second) = world.moves first ++ (world.run first).1.moves second := by
  induction first generalizing world with
  | nil => rfl
  | cons command rest ih =>
    show world.movesOf command ++ (world.perform command).1.moves (rest ++ second) = _
    rw [ih, ← List.append_assoc]
    rfl

/-- **Moves lead where their commands lead.** -/
theorem run_moves (world : World) (commands : List Command) :
    (world.run (world.moves commands)).1 = (world.run commands).1 := by
  induction commands generalizing world with
  | nil => rfl
  | cons command rest ih =>
    show (world.run (world.movesOf command ++ _)).1 = ((world.perform command).1.run rest).1
    rw [run_append, run_movesOf, ih]

/-- Each moment between two commands is one between two moves. -/
theorem after_moves (world : World) (commands : List Command) (m : Nat) :
    world.after (world.moves commands) (world.moves (commands.take m)).length =
      world.after commands m := by
  have hsplit := world.moves_append (commands.take m) (commands.drop m)
  rw [List.take_append_drop] at hsplit
  unfold after
  rw [hsplit, List.take_left, run_moves]

/-- Time does not go back in the command. -/
def Command.Forward : Command → Prop
  | .tick _ dt => 0 ≤ dt
  | .place _ => True
  | .approach _ dt => 0 ≤ dt

instance : DecidablePred Command.Forward
  | .tick _ dt => inferInstanceAs (Decidable (0 ≤ dt))
  | .place _ => inferInstanceAs (Decidable True)
  | .approach _ dt => inferInstanceAs (Decidable (0 ≤ dt))

/-- **A move** is a tick in which time does not go back, or a placement. -/
inductive Command.IsMove : Command → Prop
  | tick (intent : Intent) {dt : Float32} (hdt : 0 ≤ dt) : IsMove (.tick intent dt)
  | place (position : Vec2) : IsMove (.place position)

theorem isMove_of_mem_settleMoves {reach : Rect} {dt : Float32} (hdt : 0 ≤ dt)
    {positions : List Vec2} (h : command ∈ world.settleMoves reach dt positions) :
    command.IsMove := by
  induction positions generalizing world with
  | nil => cases h
  | cons position positions ih =>
    unfold settleMoves at h
    split_ifs at h with hmode
    · cases h
    · rcases List.mem_cons.1 h with rfl | h
      · exact .place position
      · rcases List.mem_cons.1 h with rfl | h
        · exact .tick _ hdt
        · split_ifs at h with hreach
          · cases h
          · exact ih h

theorem isMove_of_mem_moves (hforward : ∀ command ∈ commands, command.Forward) :
    ∀ command ∈ world.moves commands, command.IsMove := by
  induction commands generalizing world with
  | nil =>
    intro command hmem
    cases hmem
  | cons first rest ih =>
    obtain ⟨hfirst, hrest⟩ := List.forall_mem_cons.1 hforward
    intro command hmem
    rcases List.mem_append.1 hmem with hmem | hmem
    · cases first with
      | tick intent dt =>
        obtain rfl := List.mem_singleton.1 hmem
        exact .tick intent hfirst
      | place position =>
        obtain rfl := List.mem_singleton.1 hmem
        exact .place position
      | approach name dt =>
        -- a placement beside the character and a tick to settle, on one side or on both
        change command ∈ world.approachMoves name dt at hmem
        unfold approachMoves at hmem
        cases hnpc : world.level.npc? name with
        | none =>
          simp only [hnpc] at hmem
          cases hmem
        | some npc =>
          simp only [hnpc] at hmem
          exact isMove_of_mem_settleMoves hfirst hmem
    · exact ih hrest command hmem

/-! ### One move -/

/-- **The player jumps**: outside of conversations a jump is pressed while the player stands. -/
def Jumps (world : World) (command : Command) : Prop :=
  ∃ intent dt, command = .tick intent dt ∧ world.inDialogue = false ∧ intent.jump = true ∧
    world.body.onGround = true

/-- **The player lands** on a platform, in a tick outside of conversations. -/
def Lands (world : World) (command : Command) : Prop :=
  ∃ intent dt, command = .tick intent dt ∧ world.inDialogue = false ∧
    (Collision.step world.level.platforms world.body intent.heading intent.jump dt).2.landed = true

theorem body_place_of_idle (h : world.inDialogue = false) (position : Vec2) :
    (world.place position).body =
      { world.body with position, velocity := Vec2.zero, onGround := false } := by
  unfold place
  rw [if_neg (by rw [h]; exact Bool.false_ne_true)]
  rfl

/-- In a conversation no move does anything to the body. -/
theorem body_perform_of_inDialogue (h : world.inDialogue = true) (hmove : command.IsMove) :
    (world.perform command).1.body = world.body := by
  cases hmove with
  | tick intent hdt => exact body_tick_of_inDialogue h intent _
  | place position => exact congrArg World.body (place_of_inDialogue h position)

/-- **A move** does not bring the player above the terminal velocity. -/
theorem velocity_perform_le (hterminal : 0 < world.body.tuning.terminalVelocity)
    (hmove : command.IsMove)
    (hslow : world.body.velocity.y ≤ world.body.tuning.terminalVelocity) :
    (world.perform command).1.body.velocity.y ≤ world.body.tuning.terminalVelocity := by
  cases hmode : world.inDialogue with
  | true =>
    rw [body_perform_of_inDialogue hmode hmove]
    exact hslow
  | false =>
    cases hmove with
    | tick intent hdt =>
      rw [perform, body_tick_of_idle hmode]
      exact Collision.velocity_step_le _ _ _ _ _ hterminal
    | place position =>
      rw [perform, body_place_of_idle hmode]
      exact Binary32.le_of_lt hterminal

/-- **A move** lets the player rise only by a jump. -/
theorem jumps_of_rise (hgravity : 0 ≤ world.body.tuning.gravity)
    (hterminal : 0 < world.body.tuning.terminalVelocity) (hmove : command.IsMove)
    (hrest : ¬ world.body.velocity.y < 0)
    (hrise : (world.perform command).1.body.velocity.y < 0) : world.Jumps command := by
  cases hmode : world.inDialogue with
  | true =>
    rw [body_perform_of_inDialogue hmode hmove] at hrise
    exact absurd hrise hrest
  | false =>
    cases hmove with
    | tick intent hdt =>
      rw [perform, body_tick_of_idle hmode] at hrise
      obtain ⟨hjump, hground⟩ :=
        Collision.jump_of_step_lt_zero hgravity hterminal hdt hrest hrise
      exact ⟨intent, _, rfl, hmode, hjump, hground⟩
    | place position =>
      rw [perform, body_place_of_idle hmode] at hrise
      exact absurd hrise (Binary32.lt_irrefl 0)

/-- **After a move** the player stands by a landing, or because the move was in a conversation and
the player stood. -/
theorem onGround_perform_iff (hmove : command.IsMove) :
    (world.perform command).1.body.onGround = true ↔
      world.Lands command ∨ world.inDialogue = true ∧ world.body.onGround = true := by
  cases hmode : world.inDialogue with
  | true =>
    -- a conversation holds the body as it is
    rw [body_perform_of_inDialogue hmode hmove]
    refine ⟨fun h => Or.inr ⟨rfl, h⟩, ?_⟩
    rintro (⟨intent, dt, -, hidle, -⟩ | ⟨-, h⟩)
    · cases hmode.symm.trans hidle
    · exact h
  | false =>
    cases hmove with
    | tick intent hdt =>
      rw [perform, body_tick_of_idle hmode, Collision.onGround_step]
      refine ⟨fun h => Or.inl ⟨intent, _, rfl, hmode, h⟩, ?_⟩
      rintro (⟨intent', dt', heq, -, h⟩ | ⟨h, -⟩)
      · cases heq
        exact h
      · cases h
    | place position =>
      -- who is put somewhere is in the air there
      rw [perform, body_place_of_idle hmode]
      refine iff_of_false Bool.false_ne_true ?_
      rintro (⟨intent, dt, heq, -⟩ | ⟨h, -⟩)
      · cases heq
      · cases h

theorem velocity_perform_of_lands (h : world.Lands command) :
    (world.perform command).1.body.velocity.y = 0 := by
  obtain ⟨intent, dt, rfl, hmode, hlanded⟩ := h
  rw [perform, body_tick_of_idle hmode]
  exact Collision.velocity_step_of_landed hlanded

/-! ### The moves of a run -/

/-- **A launch**: the player did not rise, and rises after the move. -/
def LaunchesAt (world : World) (path : List Command) (n : Nat) : Prop :=
  0 ≤ (world.after path n).body.velocity.y ∧ (world.after path (n + 1)).body.velocity.y < 0

instance (world : World) (path : List Command) (n : Nat) :
    Decidable (world.LaunchesAt path n) := inferInstanceAs (Decidable (_ ∧ _))

/-- The player jumps in the move with that number. -/
def JumpsAt (world : World) (path : List Command) (n : Nat) : Prop :=
  ∃ command, path[n]? = some command ∧ (world.after path n).Jumps command

/-- The player lands in the move with that number. -/
def LandsAt (world : World) (path : List Command) (n : Nat) : Prop :=
  ∃ command, path[n]? = some command ∧ (world.after path n).Lands command

theorem tuning_after (world : World) (path : List Command) (n : Nat) :
    (world.after path n).body.tuning = world.body.tuning :=
  congrArg Build.tuning (world.build_run _)

/-- **At any moment** the player is not above the terminal velocity. -/
theorem velocity_after_le (hpath : ∀ command ∈ path, command.IsMove)
    (hterminal : 0 < world.body.tuning.terminalVelocity)
    (hslow : world.body.velocity.y ≤ world.body.tuning.terminalVelocity) (n : Nat) :
    (world.after path n).body.velocity.y ≤ world.body.tuning.terminalVelocity := by
  induction n with
  | zero => exact hslow
  | succ n ih =>
    cases hcommand : path[n]? with
    | none =>
      rw [after_succ_of_none hcommand]
      exact ih
    | some command =>
      rw [after_succ_of_some hcommand]
      rw [← world.tuning_after path n] at hterminal ih ⊢
      exact velocity_perform_le hterminal (hpath _ (List.mem_of_getElem? hcommand)) ih

/-- **A launch** is a jump. -/
theorem jumpsAt_of_launchesAt (hpath : ∀ command ∈ path, command.IsMove)
    (hgravity : 0 ≤ world.body.tuning.gravity)
    (hterminal : 0 < world.body.tuning.terminalVelocity) (h : world.LaunchesAt path n) :
    world.JumpsAt path n := by
  obtain ⟨hrest, hrise⟩ := h
  have hrest' : ¬ (world.after path n).body.velocity.y < 0 :=
    (Binary32.le_iff_not_lt Binary32.isNaN_zero (Binary32.le_iff.1 hrest).2.1).1 hrest
  cases hcommand : path[n]? with
  | none =>
    rw [after_succ_of_none hcommand] at hrise
    exact absurd hrise hrest'
  | some command =>
    rw [after_succ_of_some hcommand] at hrise
    rw [← world.tuning_after path n] at hgravity hterminal
    exact ⟨command, hcommand, jumps_of_rise hgravity hterminal
      (hpath _ (List.mem_of_getElem? hcommand)) hrest' hrise⟩

/-- The last landing, with only conversations after it. -/
theorem exists_last_succ {P Q : Nat → Prop} :
    (∃ k < n + 1, P k ∧ ∀ j, k < j → j < n + 1 → Q j) ↔
      P n ∨ Q n ∧ ∃ k < n, P k ∧ ∀ j, k < j → j < n → Q j := by
  constructor
  · rintro ⟨k, hk, hlast, hafter⟩
    rcases Nat.lt_succ_iff_lt_or_eq.1 hk with hlt | rfl
    · refine Or.inr ⟨hafter n hlt n.lt_succ_self, k, hlt, hlast, fun j hj hjn => ?_⟩
      exact hafter j hj (Nat.lt_succ_of_lt hjn)
    · exact Or.inl hlast
  · rintro (hlast | ⟨hnow, k, hk, hlast, hafter⟩)
    · refine ⟨n, n.lt_succ_self, hlast, fun j hj hjn => ?_⟩
      exact absurd hj (Nat.not_lt.2 (Nat.le_of_lt_succ hjn))
    · refine ⟨k, Nat.lt_succ_of_lt hk, hlast, fun j hj hjn => ?_⟩
      rcases Nat.lt_succ_iff_lt_or_eq.1 hjn with hlt | rfl
      · exact hafter j hj hlt
      · exact hnow

/-- **The player stands** exactly if there was a landing, and only moves in conversations since. -/
theorem onGround_after_iff (hpath : ∀ command ∈ path, command.IsMove)
    (hstart : world.body.onGround = false) (hn : n ≤ path.length) :
    (world.after path n).body.onGround = true ↔
      ∃ k < n, world.LandsAt path k ∧
        ∀ j, k < j → j < n → (world.after path j).inDialogue = true := by
  -- a move either is the last landing, or is in a conversation and leaves the last one the last one
  induction n with
  | zero =>
    refine iff_of_false ?_ (by rintro ⟨k, hk, -⟩; cases hk)
    show ¬ world.body.onGround = true
    rw [hstart]
    exact Bool.false_ne_true
  | succ n ih =>
    have hcommand : path[n]? = some path[n] := List.getElem?_eq_getElem hn
    have hlands : (world.after path n).Lands path[n] ↔ world.LandsAt path n := by
      refine ⟨fun h => ⟨_, hcommand, h⟩, ?_⟩
      rintro ⟨command, heq, h⟩
      rw [Option.some.inj (hcommand.symm.trans heq)]
      exact h
    rw [after_succ_of_some hcommand, onGround_perform_iff (hpath _ (List.getElem_mem hn)),
      exists_last_succ, ih (Nat.le_of_succ_le hn), hlands]

/-- Between two launches there is a landing. -/
theorem exists_landsAt_between (hpath : ∀ command ∈ path, command.IsMove)
    (hgravity : 0 ≤ world.body.tuning.gravity)
    (hterminal : 0 < world.body.tuning.terminalVelocity) (hstart : world.body.onGround = false)
    {m : Nat} (hmn : m < n) (hm : world.LaunchesAt path m) (hn : world.LaunchesAt path n) :
    ∃ k, m < k ∧ k < n ∧ world.LandsAt path k := by
  obtain ⟨first, -, -, -, -, hidle, -, -⟩ := jumpsAt_of_launchesAt hpath hgravity hterminal hm
  obtain ⟨second, hsecond, -, -, -, -, -, hground⟩ :=
    jumpsAt_of_launchesAt hpath hgravity hterminal hn
  obtain ⟨hlt, -⟩ := List.getElem?_eq_some_iff.1 hsecond
  obtain ⟨k, hk, hlands, hafter⟩ := (onGround_after_iff hpath hstart hlt.le).1 hground
  -- it is the landing before the second launch; what is left is that it is after the first one
  refine ⟨k, ?_, hk, hlands⟩
  rcases Nat.lt_trichotomy k m with hkm | rfl | hmk
  · -- the first launch was outside of conversations, so it is not after the landing
    cases (hafter m hkm hmn).symm.trans hidle
  · -- nor is it the landing itself
    obtain ⟨command, hcommand, hland⟩ := hlands
    have hrise := hm.2
    rw [after_succ_of_some hcommand, velocity_perform_of_lands hland] at hrise
    exact absurd hrise (Binary32.lt_irrefl 0)
  · exact hmk

theorem body_of_create {character : Character} {rules : Rules} {level : Level}
    {script : Story.Script} (h : create character rules level script = .ok world) :
    world.body = Body.spawn rules.movement := by
  obtain ⟨graph, chapters, camera, -, -, rfl⟩ := eq_of_create h
  rfl

/-- **Nobody jumps in mid-air, and nobody falls too fast.** Let gravity not be negative and the
terminal velocity be positive, and tell a world to do anything, without letting time go back. At any
moment the vertical velocity is a number, and not above the terminal velocity. The player stands
exactly if there was a landing that nothing but moves in conversations has followed. The velocity
turns from not negative to negative only in a tick outside of conversations in which a jump is
pressed and the player stands. And so there is a landing between any two of these launches. -/
theorem vertical_speed_law {character : Character} {rules : Rules} {level : Level}
    {script : Story.Script} (h : create character rules level script = .ok world)
    (hgravity : 0 ≤ rules.movement.gravity) (hterminal : 0 < rules.movement.terminalVelocity)
    (commands : List Command) (hforward : ∀ command ∈ commands, command.Forward) :
    let path := world.moves commands
    (∀ m, world.after path (world.moves (commands.take m)).length = world.after commands m) ∧
      (∀ n, (world.after path n).body.velocity.y ≤ rules.movement.terminalVelocity) ∧
      (∀ n ≤ path.length, (world.after path n).body.onGround = true ↔
        ∃ k < n, world.LandsAt path k ∧
          ∀ j, k < j → j < n → (world.after path j).inDialogue = true) ∧
      (∀ n, world.LaunchesAt path n → world.JumpsAt path n) ∧
      ∀ m n, m < n → world.LaunchesAt path m → world.LaunchesAt path n →
        ∃ k, m < k ∧ k < n ∧ world.LandsAt path k := by
  intro path
  -- a world starts at rest and in the air, with the rules for its tuning
  have hbody := body_of_create h
  have hpath : ∀ command ∈ path, command.IsMove := isMove_of_mem_moves hforward
  have htuning : world.body.tuning = rules.movement := by
    rw [hbody]
    rfl
  have hstart : world.body.onGround = false := by
    rw [hbody]
    rfl
  have hslow : world.body.velocity.y ≤ rules.movement.terminalVelocity := by
    rw [hbody]
    exact Binary32.le_of_lt hterminal
  rw [← htuning] at hgravity hterminal hslow ⊢
  refine ⟨world.after_moves commands, velocity_after_le hpath hterminal hslow, ?_, ?_, ?_⟩
  · intro n hn
    exact onGround_after_iff hpath hstart hn
  · intro n hlaunch
    exact jumpsAt_of_launchesAt hpath hgravity hterminal hlaunch
  · intro m n hmn hm hn
    exact exists_landsAt_between hpath hgravity hterminal hstart hmn hm hn

/-- Somebody stands on a terrace. -/
def terrace : Level where
  platforms := [⟨⟨0, 400, 400, 1000⟩⟩]
  npcs := porch.npcs

/-- The player goes to somebody, jumps, falls for long enough, and jumps again. -/
def twoJumps : List Command :=
  [.approach "Guard" 0.01, .tick { jump := true } 0.01, .tick {} 0.5, .tick { jump := true } 0.01]

/-- The approach is made of two moves, so the jumps are the moves 2 and 4. -/
theorem vertical_speed_law_two_jumps :
    ∃ world, create (Character.ofName "Morticia") {} terrace twoRooms = .ok world ∧
      let path := world.moves twoJumps
      0 ≤ ({} : Rules).movement.gravity ∧ 0 < ({} : Rules).movement.terminalVelocity ∧
      (∀ command ∈ twoJumps, command.Forward) ∧
      world.LaunchesAt path 2 ∧ world.LaunchesAt path 4 ∧ world.JumpsAt path 4 ∧
      (world.after path 3).body.velocity.y ≤ ({} : Rules).movement.terminalVelocity ∧
      ∃ k, 2 < k ∧ k < 4 ∧ world.LandsAt path k := by
  have hcheck : (create (Character.ofName "Morticia") {} terrace twoRooms).toOption.any
      (fun world =>
        world.LaunchesAt (world.moves twoJumps) 2 ∧
          world.LaunchesAt (world.moves twoJumps) 4) = true := by
    decide +kernel
  obtain ⟨world, hworld, hp⟩ := exists_created hcheck
  obtain ⟨hfirst, hsecond⟩ := of_decide_eq_true hp
  have hforward : ∀ command ∈ twoJumps, command.Forward := by decide
  have hgravity : 0 ≤ ({} : Rules).movement.gravity := by decide
  have hterminal : 0 < ({} : Rules).movement.terminalVelocity := by decide
  obtain ⟨-, hslow, -, hjumps, hbetween⟩ :=
    vertical_speed_law hworld hgravity hterminal twoJumps hforward
  exact ⟨world, hworld, hgravity, hterminal, hforward, hfirst, hsecond, hjumps 4 hsecond, hslow 3,
    hbetween 2 4 (by decide) hfirst hsecond⟩

end Sidescroller.World
