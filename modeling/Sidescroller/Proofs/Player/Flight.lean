import Sidescroller.Proofs.Binary32.Sign
import Sidescroller.Proofs.Player.Contact

/-!
# Rising and falling

A body falls ever faster, up to its terminal velocity, and a platform stops it. It rises only after
a jump, and it jumps only while it stands. The numbers need not make sense for this: a velocity that
is no number gives way to the terminal velocity.

* `velocity_step_cases` — after a step the vertical velocity is what it was brought to, or zero;
* `velocity_step_le` — it is at most the terminal velocity;
* `jump_of_step_lt_zero` — a body that did not rise before the step rises after it only by a jump.
-/

namespace Sidescroller

open Binary32

namespace Body

/-- The velocity is bounded whatever it was before. -/
theorem velocity_integrate_le (body : Body) (heading : Heading) (jump : Bool) (dt : Float32)
    (hterminal : body.tuning.terminalVelocity.isNaN = false) :
    (body.integrate heading jump dt).1.velocity.y ≤ body.tuning.terminalVelocity := by
  have htuning : (body.takeOff jump).tuning = body.tuning := by
    unfold takeOff
    split_ifs <;> rfl
  unfold integrate
  dsimp only
  rw [htuning]
  exact lesser_le _ hterminal

/-- Without a jump gravity is all there is. -/
theorem not_velocity_integrate_lt_zero {body : Body} {jump : Bool} {dt : Float32}
    (hgravity : 0 ≤ body.tuning.gravity) (hterminal : 0 < body.tuning.terminalVelocity)
    (hdt : 0 ≤ dt) (hrest : ¬ body.velocity.y < 0) (hjump : ¬ (jump = true ∧ body.onGround = true))
    (heading : Heading) : ¬ (body.integrate heading jump dt).1.velocity.y < 0 := by
  have hstays : body.takeOff jump = body := by
    unfold takeOff
    rw [if_neg (by rw [Bool.and_eq_true]; exact hjump)]
  have hnot {x : Float32} (h : 0 ≤ x) : ¬ x < 0 :=
    (le_iff_not_lt isNaN_zero (le_iff.1 h).2.1).1 h
  unfold integrate
  dsimp only
  rw [hstays]
  -- the old velocity, plus a product that is not below zero, limited by a positive number
  exact not_lesser_lt_zero (not_add_lt_zero hrest (not_mul_lt_zero (hnot hgravity) (hnot hdt)))
    (Binary32.lt_asymm hterminal)

end Body

namespace Collision

variable {platforms : List Platform} {body : Body} {heading : Heading} {jump : Bool} {dt : Float32}

/-- **The vertical velocity** after a step is what the step began with, or a platform has stopped
the body. -/
theorem velocity_step_cases (platforms : List Platform) (body : Body) (heading : Heading)
    (jump : Bool) (dt : Float32) :
    (step platforms body heading jump dt).1.velocity.y =
        (body.integrate heading jump dt).1.velocity.y ∧
        (step platforms body heading jump dt).2.landed = false ∨
      (step platforms body heading jump dt).1.velocity.y = 0 := by
  rw [step_eq_slides]
  dsimp only
  -- the horizontal move does not touch the velocity
  obtain ⟨x, hslid⟩ :=
    slideX_eq platforms (body.airborne heading jump dt) (body.integrate heading jump dt).2.x
  rw [hslid]
  rcases slideY_cases platforms ((body.airborne heading jump dt).withX x)
    (body.integrate heading jump dt).2.y with ⟨-, hfree⟩ | ⟨-, -, ⟨p, -, y, -, -, hlast⟩, -⟩
  · rw [hfree]
    exact Or.inl ⟨rfl, rfl⟩
  · rw [hlast]
    exact Or.inr rfl

theorem velocity_step_of_landed (h : (step platforms body heading jump dt).2.landed = true) :
    (step platforms body heading jump dt).1.velocity.y = 0 := by
  rcases velocity_step_cases platforms body heading jump dt with ⟨-, hfree⟩ | hstopped
  · cases hfree.symm.trans h
  · exact hstopped

/-- **Nobody falls faster** than the terminal velocity. -/
theorem velocity_step_le (platforms : List Platform) (body : Body) (heading : Heading)
    (jump : Bool) (dt : Float32) (hterminal : 0 < body.tuning.terminalVelocity) :
    (step platforms body heading jump dt).1.velocity.y ≤ body.tuning.terminalVelocity := by
  rcases velocity_step_cases platforms body heading jump dt with ⟨hfree, -⟩ | hstopped
  · rw [hfree]
    exact body.velocity_integrate_le heading jump dt (lt_iff.1 hterminal).2.1
  · rw [hstopped]
    exact Binary32.le_of_lt hterminal

/-- **Nobody takes off without a jump** from the ground. -/
theorem jump_of_step_lt_zero (hgravity : 0 ≤ body.tuning.gravity)
    (hterminal : 0 < body.tuning.terminalVelocity) (hdt : 0 ≤ dt) (hrest : ¬ body.velocity.y < 0)
    (hrise : (step platforms body heading jump dt).1.velocity.y < 0) :
    jump = true ∧ body.onGround = true := by
  rcases velocity_step_cases platforms body heading jump dt with ⟨hfree, -⟩ | hstopped
  · rw [hfree] at hrise
    by_contra hjump
    exact Body.not_velocity_integrate_lt_zero hgravity hterminal hdt hrest hjump heading hrise
  · rw [hstopped] at hrise
    exact absurd hrise (Binary32.lt_irrefl 0)

end Collision

end Sidescroller
