import Sidescroller.Proofs.Player.Contact

/-!
# Standing and walking on a level floor

A floor may be made of tiles, in any number and arrangement, and other platforms may lie below it.
A body that stands on it is pressed into it by gravity in every step and put back by the vertical
move, always to the same number. While it moves sideways it is not pressed into anything, so that it
does not get caught where two tiles meet.

* `clear_of_bottom_le` — nothing is in the way of a body that is not below the floor;
* `least_flushBefore` — of several edges the lowest one decides where a falling body stops;
* `slideX_above_floor`, `slideY_on_floor` — so a body that stands runs into nothing sideways, and a
  fall onto the floor ends where it stood before;
* `Standing.step` — a step on a floor; `walking_is_stable` — any number of them.
-/

namespace Sidescroller.Collision

open Binary32

variable {platforms : List Platform} {body : Body} {floor : Float32}

/-! ### One step -/

/-- Nothing is in the way of a body that does not reach below the tops of all platforms. -/
theorem clear_of_bottom_le (hfloor : ∀ p ∈ platforms, floor ≤ p.bounds.top)
    (hbottom : body.rect.bottom ≤ floor) : Clear platforms body := by
  intro p hp
  have hle := Binary32.le_trans hbottom (hfloor p hp)
  obtain ⟨hnan, htop, -⟩ := le_iff.1 hle
  rw [← Bool.not_eq_true, overlaps_iff_shares]
  rintro ⟨-, -, hbelow⟩
  exact (le_iff_not_lt hnan htop).1 hle hbelow

/-- **The lowest edge decides** where a falling body stops. -/
theorem least_flushBefore {near : Platform → Float32} {obstacles : List Platform}
    {size x y : Float32}
    (h : least? (obstacles.map fun o => flushBefore (near o) size) = some y)
    (hobs : ∀ o ∈ obstacles, floor ≤ near o ∧ near o < x + size)
    (htile : ∃ o ∈ obstacles, (near o == floor) = true) : Same y (flushBefore floor size) := by
  obtain ⟨hmem, hleast⟩ := least?_spec h
  obtain ⟨o, ho, rfl⟩ := List.mem_map.1 hmem
  obtain ⟨tile, htile, heq⟩ := htile
  obtain ⟨hfloor, hpass⟩ := hobs o ho
  have hfloorpass : floor < x + size := Binary32.lt_of_le_of_lt hfloor hpass
  have hsub := isNaN_sub_of_lt_add hfloorpass
  have hle : flushBefore floor size ≤ flushBefore (near o) size :=
    flushBefore_le_flushBefore hfloor hsub (isNaN_sub_of_lt_add hpass)
  -- the tile is no further on than the floor, and its flush position was not the least for nothing
  obtain ⟨htilenan, hfloornan, hvalue⟩ := beq_iff.1 heq
  obtain ⟨-, htilepass⟩ := hobs tile htile
  have hge : flushBefore (near tile) size ≤ flushBefore floor size :=
    flushBefore_le_flushBefore (le_iff.2 ⟨htilenan, hfloornan, hvalue.le⟩)
      (isNaN_sub_of_lt_add htilepass) hsub
  obtain ⟨htilestop, hfloorstop, hge⟩ := le_iff.1 hge
  obtain ⟨hstop, hle'⟩ := hleast _ (List.mem_map_of_mem htile) htilestop
  refine same_iff.2 ⟨hstop.trans hfloorstop.symm, fun _ => ?_⟩
  exact le_antisymm (hle'.trans hge) (le_iff.1 hle).2.2

/-- A fall by `d` had brought the body to where `moved` is, and it has been put onto the floor. -/
def PutOn (floor d : Float32) (moved : Body) (state : Body × Contacts) : Prop :=
  ∃ y, Same y (flushBefore floor moved.size.y) ∧ state = (stopAt moved d y, { landed := true })

/-- **A fall onto the floor** ends where a body stands on it. -/
theorem slideY_on_floor (hfloor : ∀ p ∈ platforms, floor ≤ p.bounds.top) {d : Float32}
    (hd : 0 < d)
    (htile : ∃ p ∈ platforms, (p.bounds.top == floor) = true ∧
      (body.withY (body.position.y + d)).rect.overlaps p.bounds = true)
    (hbottom : ∀ y, Same y (flushBefore floor body.size.y) → y + body.size.y ≤ floor) :
    PutOn floor d (body.withY (body.position.y + d)) (slideY platforms body d) := by
  obtain ⟨tile, htilemem, hlevel, hover⟩ := htile
  unfold slideY
  dsimp only
  rw [(beq_eq_false_of_lt hd).2, if_neg Bool.false_ne_true, settleY_eq_settle]
  generalize hmoved : body.withY (body.position.y + d) = moved at hover ⊢
  have hsize : moved.size = body.size := by rw [← hmoved]; rfl
  have hfirst : ∀ next, pushY platforms d (moved, {}) = some next → PutOn floor d moved next := by
    intro next hpush
    obtain ⟨y, hstop, rfl⟩ := Option.map_eq_some_iff.1 hpush
    unfold stopY? at hstop
    rw [if_pos hd] at hstop
    have hobs : ∀ o ∈ hits platforms moved.rect,
        floor ≤ o.bounds.top ∧ o.bounds.top < moved.position.y + moved.size.y := by
      intro o ho
      obtain ⟨hmem, hhit⟩ := mem_hits.1 ho
      exact ⟨hfloor o hmem, (overlaps_iff_shares.1 hhit).2.2⟩
    refine ⟨y, least_flushBefore hstop hobs ⟨tile, mem_hits.2 ⟨htilemem, hover⟩, hlevel⟩, ?_⟩
    rw [if_pos hd]
  have hlater : ∀ state next, pushY platforms d state = some next →
      PutOn floor d moved state → PutOn floor d moved next := by
    rintro state next hpush ⟨y, hy, rfl⟩
    rw [hsize] at hy
    -- there is no second push, since nothing is in the way any more
    have hbottom' : (stopAt moved d y).rect.bottom ≤ floor := by
      show y + moved.size.y ≤ floor
      rw [hsize]
      exact hbottom y hy
    rw [pushY_eq_none_iff.2 (clear_of_bottom_le hfloor hbottom')] at hpush
    cases hpush
  rcases settle_cases hfirst hlater platforms.length with ⟨hnone, -⟩ | ⟨-, hsettled⟩
  · exact absurd (pushY_eq_none_iff.1 hnone) (not_clear_iff.2 ⟨tile, htilemem, hover⟩)
  · exact hsettled

/-- **A body stands on a floor.** -/
structure Standing (floor : Float32) (body : Body) : Prop where
  /-- It is flush with the floor. -/
  y_eq : (body.position.y == flushBefore floor body.size.y) = true
  /-- It does not reach below the floor. -/
  bottom_le : body.rect.bottom ≤ floor
  /-- It neither falls nor rises. -/
  velocity_eq : (body.velocity.y == 0) = true

/-- **A step is supported** by the floor: nobody jumps, and the body is pressed into a tile. -/
structure Supported (platforms : List Platform) (floor : Float32) (body : Body)
    (demand : Demand) : Prop where
  jump_eq : demand.jump = false
  /-- The displacement goes down. -/
  falls : 0 < (body.integrate demand.heading demand.jump demand.dt).2.y
  /-- Moved by it, the body is in a tile of the floor. -/
  tile : ∃ p ∈ platforms, (p.bounds.top == floor) = true ∧
    (body.rect.translate (body.integrate demand.heading demand.jump demand.dt).2).overlaps p.bounds
      = true

instance (platforms : List Platform) (floor : Float32) (body : Body) (demand : Demand) :
    Decidable (Supported platforms floor body demand) :=
  decidable_of_iff
    (demand.jump = false ∧ 0 < (body.integrate demand.heading demand.jump demand.dt).2.y ∧
      ∃ p ∈ platforms, (p.bounds.top == floor) = true ∧
        (body.rect.translate
          (body.integrate demand.heading demand.jump demand.dt).2).overlaps p.bounds = true)
    ⟨fun ⟨hjump, hfalls, htile⟩ => ⟨hjump, hfalls, htile⟩, fun h => ⟨h.jump_eq, h.falls, h.tile⟩⟩

/-- A body that does not reach below the floor runs into nothing when it moves sideways. -/
theorem slideX_above_floor (hfloor : ∀ p ∈ platforms, floor ≤ p.bounds.top)
    (hbottom : body.rect.bottom ≤ floor) (d : Float32) :
    slideX platforms body d = (body.withX (body.position.x + d), false) := by
  -- its lower edge stays where it is
  have hclear : Clear platforms (body.withX (body.position.x + d)) :=
    clear_of_bottom_le hfloor hbottom
  rcases slideX_cases platforms body d with ⟨-, hslide⟩ | ⟨-, hhit, -, -⟩
  · exact hslide
  · exact absurd hclear hhit

/-- **Both moves** of a body that stands, pressed into a tile of the floor: the first one is free,
and the second one puts the body back to its height. -/
theorem moves_on_floor (hfloor : ∀ p ∈ platforms, floor ≤ p.bounds.top)
    (hflush : Same body.position.y (flushBefore floor body.size.y))
    (hbottom : body.rect.bottom ≤ floor) {delta : Vec2} (hfalls : 0 < delta.y)
    (htile : ∃ p ∈ platforms, (p.bounds.top == floor) = true ∧
      (body.rect.translate delta).overlaps p.bounds = true) :
    slideX platforms body delta.x = (body.withX (body.position.x + delta.x), false) ∧
      ∃ y, Same y (flushBefore floor body.size.y) ∧ y + body.size.y ≤ floor ∧
        slideY platforms (body.withX (body.position.x + delta.x)) delta.y =
          ({ body with
              position := ⟨body.position.x + delta.x, y⟩
              velocity := ⟨body.velocity.x, 0⟩
              onGround := true },
            { landed := true }) := by
  refine ⟨slideX_above_floor hfloor hbottom delta.x, ?_⟩
  -- wherever the same number is, the body does not reach below the floor
  have hbottom' : ∀ y, Same y (flushBefore floor body.size.y) → y + body.size.y ≤ floor := by
    intro y hy
    have hsame : Same y body.position.y := hy.trans hflush.symm
    exact ((hsame.add_right body.size.y).le_iff_left floor).2 hbottom
  generalize hslid : body.withX (body.position.x + delta.x) = slid
  have hsize : slid.size = body.size := by
    rw [← hslid]
    rfl
  have htile' : ∃ p ∈ platforms, (p.bounds.top == floor) = true ∧
      (slid.withY (slid.position.y + delta.y)).rect.overlaps p.bounds = true := by
    rw [← hslid]
    exact htile
  rw [← hsize] at hbottom' ⊢
  obtain ⟨y, hy, hfall⟩ := slideY_on_floor hfloor hfalls htile' hbottom'
  refine ⟨y, hy, hbottom' y hy, ?_⟩
  rw [hfall, stopAt, decide_eq_true hfalls, Bool.or_true, ← hslid]
  rfl

/-- **A step on a floor** moves a body sideways, and puts it back to where it stood. -/
theorem Standing.step (h : Standing floor body) (hfloor : ∀ p ∈ platforms, floor ≤ p.bounds.top)
    {demand : Demand} (hstep : Supported platforms floor body demand) :
    let next := step platforms body demand.heading demand.jump demand.dt
    Standing floor next.1 ∧ next.2 = { wall := false, landed := true, headBump := false } ∧
      next.1.velocity.y = 0 ∧
      next.1.onGround = true ∧
      next.1.position.x =
        body.position.x + demand.heading.sign * body.tuning.speed * demand.dt := by
  obtain ⟨heading, jump, dt⟩ := demand
  obtain ⟨hjump, hfalls, htile⟩ := hstep
  dsimp only at hjump hfalls htile ⊢
  obtain rfl := hjump
  have hdx : (body.integrate heading false dt).2.x = heading.sign * body.tuning.speed * dt := rfl
  rw [step_eq_slides, airborne_eq, ← hdx]
  generalize (body.integrate heading false dt).1.velocity = velocity
  generalize (body.integrate heading false dt).2 = delta at hfalls htile ⊢
  -- the moves begin with another velocity and without footing, but where the body stood
  generalize hdriven : ({ body with velocity, onGround := false } : Body) = driven
  have hflush : Same driven.position.y (flushBefore floor driven.size.y) := by
    rw [← hdriven]
    exact Or.inl h.y_eq
  obtain ⟨hslide, y, hy, hbottom, hfall⟩ := moves_on_floor hfloor hflush
    (by rw [← hdriven]; exact h.bottom_le) hfalls (by rw [← hdriven]; exact htile)
  dsimp only
  rw [hslide, hfall, ← hdriven]
  rw [← hdriven] at hy hbottom
  refine ⟨⟨?_, hbottom, beq_iff.2 ⟨isNaN_zero, isNaN_zero, rfl⟩⟩, rfl, rfl, rfl, rfl⟩
  -- the same number as one that is no NaN
  refine hy.resolve_right fun hnan => ?_
  cases (beq_iff.1 h.y_eq).2.1.symm.trans hnan.2

/-! ### Any number of steps -/

theorem steps_take_succ (platforms : List Platform) (body : Body) (demands : List Demand) {n : Nat}
    (hn : n < demands.length) :
    steps platforms body (demands.take (n + 1)) =
      (step platforms (steps platforms body (demands.take n)) demands[n].heading demands[n].jump
        demands[n].dt).1 := by
  unfold steps
  rw [← List.take_append_getElem hn, List.foldl_append]
  rfl

theorem build_steps (platforms : List Platform) (body : Body) (demands : List Demand) :
    (steps platforms body demands).build = body.build := by
  induction demands generalizing body with
  | nil => rfl
  | cons demand rest ih =>
    exact (ih _).trans (build_step platforms body demand.heading demand.jump demand.dt)

/-- A body that stands goes on standing for as long as its steps are supported. -/
theorem Standing.steps (h : Standing floor body) (hfloor : ∀ p ∈ platforms, floor ≤ p.bounds.top)
    {demands : List Demand}
    (hsupported : ∀ n (hn : n < demands.length),
      Supported platforms floor (steps platforms body (demands.take n)) demands[n])
    {n : Nat} (hn : n ≤ demands.length) :
    Standing floor (steps platforms body (demands.take n)) := by
  -- by induction on the number of steps: each one leaves the body standing for the next
  induction n with
  | zero => exact h
  | succ n ih =>
    rw [steps_take_succ platforms body demands hn]
    obtain ⟨hnext, -⟩ := (ih (Nat.le_of_succ_le hn)).step hfloor (hsupported n hn)
    exact hnext

/-- **Standing and walking on a level floor is stable.** All platforms have their tops at the floor
or below, and a body stands on it. Nobody jumps, and in every step the body is pressed down into a
tile of the floor. Then every step, in whatever direction and however long, reports a landing, and
neither a wall nor a bump. The body keeps its height, its vertical velocity of zero and its footing,
and moves sideways by exactly what its speed asks for. -/
theorem walking_is_stable (hfloor : ∀ p ∈ platforms, floor ≤ p.bounds.top)
    (hstanding : Standing floor body) {demands : List Demand}
    (hsupported : ∀ n (hn : n < demands.length),
      Supported platforms floor (steps platforms body (demands.take n)) demands[n])
    {n : Nat} (hn : n < demands.length) :
    let now := steps platforms body (demands.take n)
    let next := step platforms now demands[n].heading demands[n].jump demands[n].dt
    next.1 = steps platforms body (demands.take (n + 1)) ∧
      next.2 = { wall := false, landed := true, headBump := false } ∧
      (next.1.position.y == body.position.y) = true ∧
      next.1.velocity.y = 0 ∧
      next.1.onGround = true ∧
      next.1.position.x =
        now.position.x + demands[n].heading.sign * body.tuning.speed * demands[n].dt := by
  intro now next
  have hnow : Standing floor now := hstanding.steps hfloor hsupported hn.le
  have hbuild : now.build = body.build := build_steps platforms body _
  obtain ⟨hnext, hcontacts, hvelocity, hground, hx⟩ := hnow.step hfloor (hsupported n hn)
  have hsize : next.1.size = body.size :=
    congrArg Build.size ((build_step platforms now _ _ _).trans hbuild)
  have htuning : now.tuning = body.tuning := congrArg Build.tuning hbuild
  refine ⟨(steps_take_succ platforms body demands hn).symm, hcontacts, ?_, hvelocity, hground, ?_⟩
  · -- both are where a body stands that is as high as this one
    have hy := hnext.y_eq
    rw [show (Collision.step platforms now _ _ _).1.size = body.size from hsize] at hy
    obtain ⟨hnan, -, hvalue⟩ := beq_iff.1 hy
    obtain ⟨hnan', -, hvalue'⟩ := beq_iff.1 hstanding.y_eq
    exact beq_iff.2 ⟨hnan, hnan', hvalue.trans hvalue'.symm⟩
  · rw [← htuning]
    exact hx

/-- A body walks over the seam of two tiles and back, above a platform that lies lower. -/
theorem walking_is_stable_seam :
    let platforms : List Platform := [⟨⟨0, 100, 50, 20⟩⟩, ⟨⟨0, 150, 80, 20⟩⟩, ⟨⟨50, 100, 50, 20⟩⟩]
    let body : Body := { Body.spawn {} with position := ⟨20, 70⟩, size := ⟨20, 30⟩ }
    let walk : List Demand := [⟨.right, false, 0.1⟩, ⟨.left, false, 0.1⟩]
    let across := steps platforms body (walk.take 1)
    let back := step platforms across .left false 0.1
    Standing 100 body ∧ across.position.x < 50 ∧ 50 < across.rect.right ∧
      back.2 = { wall := false, landed := true, headBump := false } ∧
      (back.1.position.y == 70) = true ∧
      back.1.position.x = across.position.x + -1 * 252 * 0.1 := by
  intro platforms body walk across back
  have hfloor : ∀ p ∈ platforms, (100 : Float32) ≤ p.bounds.top := by decide
  have hstanding : Standing 100 body := ⟨by decide, by decide, by decide⟩
  have hsupported : ∀ n (hn : n < walk.length),
      Supported platforms 100 (steps platforms body (walk.take n)) walk[n] := by
    decide +kernel
  have hlast : 1 < walk.length := by decide
  obtain ⟨-, hcontacts, hy, -, -, hx⟩ := walking_is_stable hfloor hstanding hsupported hlast
  exact ⟨hstanding, by decide, by decide, hcontacts, hy, hx⟩

end Sidescroller.Collision
