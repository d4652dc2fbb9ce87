import Sidescroller.Proofs.Player.Arrangement

/-!
# What moving leaves alone

A step moves the body, and nothing else about it changes: its size and its tuning are its build, and
the build is for good. Each move says which fields it may have written, so that whatever does not
look at these fields need not know how collisions are resolved.

* `settle_keeps` — what every push keeps, settling keeps; `settle_cases` — and what every push
  brings about is there in the end, if there is one;
* `slideX_eq`, `slideY_eq`, `step_eq` — what a move and a step may have written;
* `build_step` — the build of a body after a step.
-/

namespace Sidescroller

/-- The part of a body that nothing changes. -/
structure Build where
  size : Vec2
  tuning : Rules.Movement

/-- The build of a body. -/
def Body.build (body : Body) : Build where
  size := body.size
  tuning := body.tuning

namespace Collision

variable {platforms : List Platform} {body : Body}

theorem settle_keeps {State : Type} {push : State → Option State} {P : State → Prop}
    (hpush : ∀ state next, push state = some next → P state → P next) (rounds : Nat)
    {state : State} (h : P state) : P (settle push rounds state) := by
  induction rounds generalizing state with
  | zero => exact h
  | succ rounds ih =>
    rw [settle]
    cases hnext : push state with
    | none => exact h
    | some next => exact ih (hpush state next hnext h)

/-- **Settling** is over at once, or what every push brings about is there in the end. -/
theorem settle_cases {State : Type} {push : State → Option State} {P : State → Prop}
    {state : State} (hfirst : ∀ next, push state = some next → P next)
    (hlater : ∀ state next, push state = some next → P state → P next) (rounds : Nat) :
    push state = none ∧ settle push (rounds + 1) state = state ∨
      push state ≠ none ∧ P (settle push (rounds + 1) state) := by
  rw [settle]
  cases hnext : push state with
  | none => exact Or.inl ⟨rfl, rfl⟩
  | some next =>
    exact Or.inr ⟨Option.some_ne_none next, settle_keeps hlater rounds (hfirst next hnext)⟩

/-- **A horizontal move** writes the horizontal position. -/
theorem slideX_eq (platforms : List Platform) (body : Body) (dx : Float32) :
    ∃ x, (slideX platforms body dx).1 = body.withX x := by
  have hsettle : ∀ rounds, ∃ x, (settle (pushX platforms dx) rounds
      (body.withX (body.position.x + dx), false)).1 = body.withX x := by
    intro rounds
    refine settle_keeps (P := fun (state : Body × Bool) => ∃ x, state.1 = body.withX x) ?_ rounds
      ⟨_, rfl⟩
    rintro state next hpush ⟨x, hx⟩
    obtain ⟨stop, -, rfl⟩ := Option.map_eq_some_iff.1 hpush
    exact ⟨stop, congrArg (·.withX stop) hx⟩
  unfold slideX
  dsimp only
  split_ifs
  · exact ⟨_, rfl⟩
  · rw [settleX_eq_settle]
    exact hsettle _

/-- **A vertical move** writes the vertical position and velocity, and whether the body stands. -/
theorem slideY_eq (platforms : List Platform) (body : Body) (dy : Float32) :
    ∃ y vy onGround, (slideY platforms body dy).1 =
      { body.withY y with velocity := ⟨body.velocity.x, vy⟩, onGround } := by
  have hsettle : ∀ rounds, ∃ y vy onGround, (settle (pushY platforms dy) rounds
      (body.withY (body.position.y + dy), {})).1 =
        { body.withY y with velocity := ⟨body.velocity.x, vy⟩, onGround } := by
    intro rounds
    refine settle_keeps (P := fun (state : Body × Contacts) => ∃ y vy onGround, state.1 =
      { body.withY y with velocity := ⟨body.velocity.x, vy⟩, onGround }) ?_ rounds ⟨_, _, _, rfl⟩
    rintro state next hpush ⟨y, vy, onGround, hstate⟩
    obtain ⟨stop, -, rfl⟩ := Option.map_eq_some_iff.1 hpush
    refine ⟨stop, 0, onGround || 0 < dy, ?_⟩
    dsimp only
    rw [hstate]
    rfl
  unfold slideY
  dsimp only
  split_ifs
  · exact ⟨_, _, _, rfl⟩
  · rw [settleY_eq_settle]
    exact hsettle _

theorem integrate_eq (body : Body) (heading : Heading) (jump : Bool) (dt : Float32) :
    ∃ velocity onGround, (body.integrate heading jump dt).1 = { body with velocity, onGround } := by
  unfold Body.integrate Body.takeOff
  split_ifs
  · exact ⟨_, _, rfl⟩
  · exact ⟨_, _, rfl⟩

/-- **A step** writes position and velocity, and whether the body stands. -/
theorem step_eq (platforms : List Platform) (body : Body) (heading : Heading) (jump : Bool)
    (dt : Float32) :
    ∃ position velocity onGround, (step platforms body heading jump dt).1 =
      { body with position, velocity, onGround } := by
  unfold step
  dsimp only
  obtain ⟨velocity, onGround, hdriven⟩ := integrate_eq body heading jump dt
  obtain ⟨x, hslid⟩ := slideX_eq platforms
    { (body.integrate heading jump dt).1 with onGround := false }
    (body.integrate heading jump dt).2.x
  obtain ⟨y, vy, landed, hsettled⟩ := slideY_eq platforms
    (slideX platforms { (body.integrate heading jump dt).1 with onGround := false }
      (body.integrate heading jump dt).2.x).1
    (body.integrate heading jump dt).2.y
  rw [hsettled, hslid, hdriven]
  exact ⟨_, _, _, rfl⟩

theorem build_step (platforms : List Platform) (body : Body) (heading : Heading) (jump : Bool)
    (dt : Float32) : (step platforms body heading jump dt).1.build = body.build := by
  obtain ⟨position, velocity, onGround, h⟩ := step_eq platforms body heading jump dt
  rw [h]
  rfl

end Collision

end Sidescroller
