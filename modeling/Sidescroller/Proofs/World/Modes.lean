import Sidescroller.Proofs.World.Steering

/-!
# Each mode has keys of its own

A tick of a conversation reads five keys, and a tick of free movement reads the other three fields
of an intent. Which of the two it is has been settled when the tick begins. So a key that is held
while the mode changes does nothing until its own mode is back: the tick that opens a conversation
does not answer in it, and the tick that closes one does not walk.

* `Intent.Agree` — two intents that a mode cannot tell apart;
* `tick_eq_of_agree` — a tick is the same for both;
* `Alike` — two sequences of commands that differ only in what is not read;
* `modes_do_not_mix` — they are the same run, step by step.
-/

namespace Sidescroller

/-- **Two intents agree** on what is read in a conversation, or on what is read outside of one. -/
inductive Intent.Agree (intent intent' : Intent) : (inDialogue : Bool) → Prop
  | talking (hcancel : intent'.cancel = intent.cancel) (hnumeric : intent'.numeric = intent.numeric)
      (hconfirm : intent'.confirm = intent.confirm) (hmenuUp : intent'.menuUp = intent.menuUp)
      (hmenuDown : intent'.menuDown = intent.menuDown) : Agree intent intent' true
  | roaming (hheading : intent'.heading = intent.heading) (hjump : intent'.jump = intent.jump)
      (hinteract : intent'.interact = intent.interact) : Agree intent intent' false

namespace World

variable {world : World} {intent intent' : Intent}

/-! ### One tick -/

theorem respond_of_agree (h : intent.Agree intent' true) :
    world.respond intent' = world.respond intent := by
  cases h with
  | talking hcancel hnumeric hconfirm hmenuUp hmenuDown =>
    have hhighlight : world.highlight intent' = world.highlight intent := by
      unfold highlight
      rw [hmenuUp, hmenuDown]
    unfold respond
    rw [hcancel, hnumeric, hconfirm, hhighlight]

theorem moved_of_agree (h : intent.Agree intent' false) (dt : Float32) :
    world.moved intent' dt = world.moved intent dt := by
  cases h with
  | roaming hheading hjump hinteract =>
    unfold moved
    rw [hheading, hjump]

/-- **A tick reads only the keys of its mode**, the one in which it is entered. -/
theorem tick_eq_of_agree (h : intent.Agree intent' world.inDialogue) (dt : Float32) :
    world.tick intent' dt = world.tick intent dt := by
  cases hmode : world.inDialogue with
  | true =>
    rw [hmode] at h
    rw [tick_of_inDialogue hmode, tick_of_inDialogue hmode, converse_eq, converse_eq,
      respond_of_agree h]
  | false =>
    rw [hmode] at h
    rw [tick_of_idle hmode, tick_of_idle hmode, moved_of_agree h dt]
    cases h with
    | roaming hheading hjump hinteract => rw [hinteract]

/-! ### Runs -/

/-- **Two sequences of commands are alike** for a world: they are the same, but that the intents of
a tick need to agree only on what is read in the mode in which the tick is entered. -/
inductive Alike : World → List Command → List Command → Prop
  | nil (world : World) : Alike world [] []
  | tick {world : World} {intent intent' : Intent} {dt : Float32} {rest rest' : List Command}
      (hagree : intent.Agree intent' world.inDialogue)
      (hrest : Alike (world.tick intent dt).1 rest rest') :
    Alike world (.tick intent dt :: rest) (.tick intent' dt :: rest')
  | place {world : World} {position : Vec2} {rest rest' : List Command}
      (hrest : Alike (world.place position) rest rest') :
    Alike world (.place position :: rest) (.place position :: rest')
  | approach {world : World} {name : String} {dt : Float32} {rest rest' : List Command}
      (hrest : Alike (world.approach name dt).1 rest rest') :
    Alike world (.approach name dt :: rest) (.approach name dt :: rest')

/-- The first commands are alike as well. -/
theorem Alike.take {commands commands' : List Command} (h : Alike world commands commands')
    (n : Nat) : Alike world (commands.take n) (commands'.take n) := by
  -- the world goes on with each command, and so does the number of those that are left
  induction h generalizing n with
  | nil world =>
    rw [List.take_nil]
    exact .nil world
  | tick hagree hrest ih =>
    cases n with
    | zero => exact .nil _
    | succ n => exact .tick hagree (ih n)
  | place hrest ih =>
    cases n with
    | zero => exact .nil _
    | succ n => exact .place (ih n)
  | approach hrest ih =>
    cases n with
    | zero => exact .nil _
    | succ n => exact .approach (ih n)

/-- **Alike commands make the same run.** -/
theorem Alike.run_eq {commands commands' : List Command} (h : Alike world commands commands') :
    world.run commands' = world.run commands := by
  induction h with
  | nil world => rfl
  | tick hagree hrest ih =>
    -- both ticks lead to the same world, from which the rest goes on
    have htick := tick_eq_of_agree hagree
    unfold run perform
    simp only [htick, ih]
  | place hrest ih =>
    unfold run perform
    simp only [ih]
  | approach hrest ih =>
    unfold run perform
    simp only [ih]

/-- **The modes do not mix.** Of two sequences of commands for a world, let both have the same calls
with the same arguments, except for the intents of ticks: these agree on the five keys of a
conversation if the tick is entered in one, and on heading, jump and interact if not. Then, after
any number of calls, both have led to the same world, and returned the same events. -/
theorem modes_do_not_mix {commands commands' : List Command} (h : Alike world commands commands')
    (n : Nat) : world.run (commands'.take n) = world.run (commands.take n) :=
  (h.take n).run_eq

/-- A visit by a player who holds keys of the other mode all the time. -/
def heldVisit : List Command :=
  [.tick { interact := true, numeric := some 1, confirm := true, cancel := true } 0.01,
    .tick { heading := .right, jump := true, interact := true, confirm := true } 0.01,
    .tick { heading := .left, jump := true, interact := true, cancel := true } 0.01]

/-- The keys that are held do not change the visit, in which a conversation is opened and left. -/
theorem modes_do_not_mix_heldVisit :
    ∃ world, create (Character.ofName "Morticia") {} porch twoRooms = .ok world ∧
      world.run heldVisit = world.run visit ∧
      (world.run (heldVisit.take 2)).1.inDialogue = true ∧
      (world.run (heldVisit.take 3)).1.inDialogue = false := by
  have hcheck : (create (Character.ofName "Morticia") {} porch twoRooms).toOption.any
      (fun world =>
        [0, 1, 2, 3].map (fun n => (world.run (visit.take n)).1.inDialogue) =
          [false, true, true, false]) = true := by
    decide +kernel
  obtain ⟨world, hworld, hp⟩ := exists_created hcheck
  simp only [List.map_cons, List.map_nil, decide_eq_true_eq, List.cons.injEq, and_true] at hp
  obtain ⟨hstart, hopened, hadvanced, hleft⟩ := hp
  have halike : Alike world visit heldVisit := by
    refine .tick ?_ (.tick ?_ (.tick ?_ (.nil _)))
    · rw [show world.inDialogue = false from hstart]
      exact .roaming rfl rfl rfl
    · rw [show (world.tick _ _).1.inDialogue = true from hopened]
      exact .talking rfl rfl rfl rfl rfl
    · rw [show ((world.tick _ _).1.tick _ _).1.inDialogue = true from hadvanced]
      exact .talking rfl rfl rfl rfl rfl
  refine ⟨world, hworld, modes_do_not_mix halike 3, ?_, ?_⟩
  · rw [modes_do_not_mix halike 2]
    exact hadvanced
  · rw [modes_do_not_mix halike 3]
    exact hleft

end World

end Sidescroller
