import Sidescroller.Proofs.Player.Frame

/-!
# Contacts tell the truth

While a body is pushed out of platforms it may be pushed several times, and in the end it need not
touch what it ran into first. What a move reports is nevertheless about both ends of it: it reports
a contact exactly if the body ran into something, and then there is a platform that the body has
come to rest at.

* `StoppedX`, `StoppedY` — how a body ends that ran into something; `slideX_cases`, `slideY_cases` —
  a move either ends so, or with the body where it moved to;
* `WallReport`, `FallReport` — what the report of a move says; `wallReport_slideX` and
  `fallReport_slideY` — it is true;
* `onGround_step` — a body stands after a step exactly if it has landed;
* `contacts_tell_truth` — what all this means for a step.
-/

namespace Sidescroller

open Binary32

/-- **Two rectangles share rows**: each begins above the lower edge of the other. -/
def Rect.SharesRows (a b : Rect) : Prop := a.top < b.bottom ∧ b.top < a.bottom

/-- **Two rectangles share columns**: each begins before the right edge of the other. -/
def Rect.SharesColumns (a b : Rect) : Prop := a.left < b.right ∧ b.left < a.right

instance (a b : Rect) : Decidable (a.SharesRows b) := inferInstanceAs (Decidable (_ ∧ _))

instance (a b : Rect) : Decidable (a.SharesColumns b) := inferInstanceAs (Decidable (_ ∧ _))

/-- What a step begins with: the body has its new velocity, and has lost its footing. -/
def Body.airborne (body : Body) (heading : Heading) (jump : Bool) (dt : Float32) : Body :=
  { (body.integrate heading jump dt).1 with onGround := false }

namespace Collision

variable {platforms : List Platform} {body moved middle last : Body} {d : Float32}

theorem overlaps_iff_shares {a b : Rect} :
    a.overlaps b = true ↔ a.SharesColumns b ∧ a.SharesRows b := overlaps_iff

theorem not_clear_iff :
    ¬ Clear platforms body ↔ ∃ p ∈ platforms, body.rect.overlaps p.bounds = true := by
  unfold Clear
  simp only [not_forall, Bool.not_eq_false, exists_prop]

theorem pushX_eq_none_iff {pushed : Bool} :
    pushX platforms d (body, pushed) = none ↔ Clear platforms body := by
  rw [pushX, Option.map_eq_none_iff, stopX?_eq_stop?, stop?_eq_none_iff, hits_eq_nil_iff]

theorem pushY_eq_none_iff {contacts : Contacts} :
    pushY platforms d (body, contacts) = none ↔ Clear platforms body := by
  rw [pushY, Option.map_eq_none_iff, stopY?_eq_stop?, stop?_eq_none_iff, hits_eq_nil_iff]

/-- A sum that is a number has no NaN in it, so if the displacement is not zero it has a
direction. -/
theorem lt_or_lt_of_add {x : Float32} (hsum : (x + d).isNaN = false) (hd : (d == 0) = false) :
    0 < d ∨ d < 0 := by
  have hnan := (isNaN_of_add hsum).2
  rw [lt_iff, lt_iff, and_iff_right isNaN_zero, and_iff_right hnan, and_iff_right hnan,
    and_iff_right isNaN_zero]
  have hne : value d ≠ value 0 := by
    intro heq
    rw [beq_iff.2 ⟨hnan, isNaN_zero, heq⟩] at hd
    cases hd
  omega

theorem StopsAt.isNaN_eq_false {near far size x y : Float32} (h : StopsAt near far d size x y) :
    x.isNaN = false ∧ y.isNaN = false := by
  have hback := h.back
  split_ifs at hback
  · exact ⟨(lt_iff.1 hback).2.1, (lt_iff.1 hback).1⟩
  · exact ⟨(lt_iff.1 hback).1, (lt_iff.1 hback).2.1⟩

/-! ### Horizontal moves -/

/-- **A wall has stopped** a body that a move by `d` had brought to where `moved` is. -/
def StoppedX (platforms : List Platform) (d : Float32) (moved last : Body) : Prop :=
  ∃ p ∈ platforms, ∃ x, moved.rect.SharesRows p.bounds ∧
    StopsAt p.bounds.left p.bounds.right d moved.size.x moved.position.x x ∧ last = moved.withX x

theorem stoppedX_of_push {state next : Body × Bool} (h : pushX platforms d state = some next) :
    StoppedX platforms d state.1 next.1 ∧ next.2 = true := by
  obtain ⟨x, hstop, rfl⟩ := Option.map_eq_some_iff.1 h
  rw [stopX?_eq_stop?] at hstop
  obtain ⟨o, ho, hstops⟩ := stop?_stopsAt hstop fun o ho => (ahead_of_mem_hits_x d ho).2
  obtain ⟨hmem, hover⟩ := mem_hits.1 ho
  exact ⟨⟨o, hmem, x, (overlaps_iff_shares.1 hover).2, hstops, rfl⟩, rfl⟩

theorem StoppedX.trans (h : StoppedX platforms d moved middle)
    (h' : StoppedX platforms d middle last) : StoppedX platforms d moved last := by
  obtain ⟨p, -, x, -, hx, rfl⟩ := h
  obtain ⟨q, hq, x', hrows, hx', rfl⟩ := h'
  exact ⟨q, hq, x', hrows, hx.trans hx', rfl⟩

/-- **A horizontal move** ends where the body moves to, or a wall stops it. -/
theorem slideX_cases (platforms : List Platform) (body : Body) (d : Float32) :
    ((d == 0) = true ∨ Clear platforms (body.withX (body.position.x + d))) ∧
        slideX platforms body d = (body.withX (body.position.x + d), false) ∨
      (d == 0) = false ∧ ¬ Clear platforms (body.withX (body.position.x + d)) ∧
        StoppedX platforms d (body.withX (body.position.x + d)) (slideX platforms body d).1 ∧
        (slideX platforms body d).2 = true := by
  unfold slideX
  dsimp only
  generalize body.withX (body.position.x + d) = moved
  cases hd : d == 0 with
  | true => exact Or.inl ⟨Or.inl rfl, rfl⟩
  | false =>
    rw [if_neg Bool.false_ne_true, settleX_eq_settle]
    have hfirst : ∀ next : Body × Bool, pushX platforms d (moved, false) = some next →
        StoppedX platforms d moved next.1 ∧ next.2 = true := fun _ => stoppedX_of_push
    -- what the first push brings about, the later ones keep
    have hlater : ∀ state next : Body × Bool, pushX platforms d state = some next →
        StoppedX platforms d moved state.1 ∧ state.2 = true →
        StoppedX platforms d moved next.1 ∧ next.2 = true := by
      rintro state next hpush ⟨hstopped, -⟩
      obtain ⟨hnext, hflag⟩ := stoppedX_of_push hpush
      exact ⟨hstopped.trans hnext, hflag⟩
    rcases settle_cases hfirst hlater platforms.length with
      ⟨hnone, hstay⟩ | ⟨hsome, hstopped⟩
    · exact Or.inl ⟨Or.inr (pushX_eq_none_iff.1 hnone), hstay⟩
    · exact Or.inr ⟨rfl, mt pushX_eq_none_iff.2 hsome, hstopped⟩

/-- **What a horizontal move reports.** The move by `d` has brought the body to where `moved` is,
and in the end it is where `last` is. -/
structure WallReport (platforms : List Platform) (d : Float32) (moved last : Body)
    (wall : Bool) : Prop where
  /-- A wall is reported exactly if the body has moved into a platform. -/
  wall_iff : wall = true ↔
    (d == 0) = false ∧ ∃ p ∈ platforms, moved.rect.overlaps p.bounds = true
  /-- Then the body is flush with a platform that has rows with it in common, and else it has
  stayed as it was. -/
  stopped : wall = true → (0 < d ∨ d < 0) ∧ last.position.x.isNaN = false ∧
    ∃ p ∈ platforms, moved.rect.SharesRows p.bounds ∧
      last = moved.withX
        (if 0 < d then flushBefore p.bounds.left moved.size.x else p.bounds.right)
  /-- Without a wall nothing has happened after the move. -/
  free : wall = false → last = moved

/-- **The report of a horizontal move is true.** -/
theorem wallReport_slideX (platforms : List Platform) (body : Body) (d : Float32) :
    WallReport platforms d (body.withX (body.position.x + d)) (slideX platforms body d).1
      (slideX platforms body d).2 := by
  rcases slideX_cases platforms body d with
    ⟨hfree, hslide⟩ | ⟨hd, hhit, ⟨p, hp, x, hrows, hx, hlast⟩, hwall⟩
  · rw [hslide]
    refine ⟨iff_of_false Bool.false_ne_true ?_, nofun, fun _ => rfl⟩
    rintro ⟨hd, hhit⟩
    rcases hfree with hzero | hclear
    · cases hzero.symm.trans hd
    · exact not_clear_iff.2 hhit hclear
  · rw [hwall]
    refine ⟨iff_of_true rfl ⟨hd, not_clear_iff.1 hhit⟩, fun _ => ?_, nofun⟩
    obtain ⟨hmoved, hnan⟩ := hx.isNaN_eq_false
    refine ⟨lt_or_lt_of_add hmoved hd, ?_, p, hp, hrows, ?_⟩
    · rw [hlast]
      exact hnan
    · rw [hlast, hx.eq]

/-! ### Vertical moves -/

/-- **A platform has stopped** a body that a move by `d` had brought to where `moved` is. -/
def StoppedY (platforms : List Platform) (d : Float32) (moved last : Body) : Prop :=
  ∃ p ∈ platforms, ∃ y, moved.rect.SharesColumns p.bounds ∧
    StopsAt p.bounds.top p.bounds.bottom d moved.size.y moved.position.y y ∧
    last = stopAt moved d y

/-- The contact that a move by `d` makes when the body is stopped. -/
def contactOf (d : Float32) : Contacts := if 0 < d then { landed := true } else { headBump := true }

theorem stoppedY_of_push {state next : Body × Contacts}
    (h : pushY platforms d state = some next) :
    StoppedY platforms d state.1 next.1 ∧
      next.2 = if 0 < d then { state.2 with landed := true }
        else { state.2 with headBump := true } := by
  obtain ⟨y, hstop, rfl⟩ := Option.map_eq_some_iff.1 h
  rw [stopY?_eq_stop?] at hstop
  obtain ⟨o, ho, hstops⟩ := stop?_stopsAt hstop fun o ho => (ahead_of_mem_hits_y d ho).2
  obtain ⟨hmem, hover⟩ := mem_hits.1 ho
  exact ⟨⟨o, hmem, y, (overlaps_iff_shares.1 hover).1, hstops, rfl⟩, rfl⟩

theorem stopAt_stopAt (body : Body) (d y y' : Float32) :
    stopAt (stopAt body d y) d y' = stopAt body d y' := by
  unfold stopAt Body.withY
  dsimp only
  rw [Bool.or_assoc, Bool.or_self]

theorem StoppedY.trans (h : StoppedY platforms d moved middle)
    (h' : StoppedY platforms d middle last) : StoppedY platforms d moved last := by
  obtain ⟨p, -, y, -, hy, rfl⟩ := h
  obtain ⟨q, hq, y', hcolumns, hy', rfl⟩ := h'
  exact ⟨q, hq, y', hcolumns, hy.trans hy', stopAt_stopAt moved d y y'⟩

/-- **A vertical move** ends where the body moves to, or a platform stops it. -/
theorem slideY_cases (platforms : List Platform) (body : Body) (d : Float32) :
    ((d == 0) = true ∨ Clear platforms (body.withY (body.position.y + d))) ∧
        slideY platforms body d = (body.withY (body.position.y + d), {}) ∨
      (d == 0) = false ∧ ¬ Clear platforms (body.withY (body.position.y + d)) ∧
        StoppedY platforms d (body.withY (body.position.y + d)) (slideY platforms body d).1 ∧
        (slideY platforms body d).2 = contactOf d := by
  unfold slideY
  dsimp only
  generalize body.withY (body.position.y + d) = moved
  cases hd : d == 0 with
  | true => exact Or.inl ⟨Or.inl rfl, rfl⟩
  | false =>
    rw [if_neg Bool.false_ne_true, settleY_eq_settle]
    have hfirst : ∀ next : Body × Contacts, pushY platforms d (moved, {}) = some next →
        StoppedY platforms d moved next.1 ∧ next.2 = contactOf d := fun _ => stoppedY_of_push
    have hlater : ∀ state next : Body × Contacts, pushY platforms d state = some next →
        StoppedY platforms d moved state.1 ∧ state.2 = contactOf d →
        StoppedY platforms d moved next.1 ∧ next.2 = contactOf d := by
      rintro state next hpush ⟨hstopped, hcontacts⟩
      obtain ⟨hnext, hnext'⟩ := stoppedY_of_push hpush
      refine ⟨hstopped.trans hnext, ?_⟩
      -- the same contact is noted once more
      rw [hnext', hcontacts]
      unfold contactOf
      split_ifs <;> rfl
    rcases settle_cases hfirst hlater platforms.length with
      ⟨hnone, hstay⟩ | ⟨hsome, hstopped⟩
    · exact Or.inl ⟨Or.inr (pushY_eq_none_iff.1 hnone), hstay⟩
    · exact Or.inr ⟨rfl, mt pushY_eq_none_iff.2 hsome, hstopped⟩

/-- **What a vertical move reports.** The move by `d` has brought the body to where `moved` is, and
in the end it is where `last` is. -/
structure FallReport (platforms : List Platform) (d : Float32) (moved last : Body)
    (contacts : Contacts) : Prop where
  /-- A landing is reported exactly if the body has moved down into a platform. -/
  landed_iff : contacts.landed = true ↔
    0 < d ∧ ∃ p ∈ platforms, moved.rect.overlaps p.bounds = true
  /-- A bump is reported exactly if the body has moved up into a platform. -/
  headBump_iff : contacts.headBump = true ↔
    d < 0 ∧ ∃ p ∈ platforms, moved.rect.overlaps p.bounds = true
  /-- A body that has landed stands on a platform that it has columns in common with. -/
  landed : contacts.landed = true → last.position.y.isNaN = false ∧
    ∃ p ∈ platforms, moved.rect.SharesColumns p.bounds ∧
      last = { moved.withY (flushBefore p.bounds.top moved.size.y) with
        velocity := ⟨moved.velocity.x, 0⟩, onGround := true }
  /-- A body that has bumped into something is directly below a platform that it has columns in
  common with. -/
  bumped : contacts.headBump = true → last.position.y.isNaN = false ∧
    ∃ p ∈ platforms, moved.rect.SharesColumns p.bounds ∧
      last = { moved.withY p.bounds.bottom with velocity := ⟨moved.velocity.x, 0⟩ }
  /-- Without a contact nothing has happened after the move. -/
  free : contacts.landed = false → contacts.headBump = false → last = moved

/-- **The report of a vertical move is true.** -/
theorem fallReport_slideY (platforms : List Platform) (body : Body) (d : Float32) :
    FallReport platforms d (body.withY (body.position.y + d)) (slideY platforms body d).1
      (slideY platforms body d).2 := by
  rcases slideY_cases platforms body d with
    ⟨hfree, hslide⟩ | ⟨hd, hhit, ⟨p, hp, y, hcolumns, hy, hlast⟩, hcontacts⟩
  · -- nothing in the way, or no move at all: neither contact is reported, and neither is there
    rw [hslide]
    have hclear : (d == 0) = false → ¬ ∃ p ∈ platforms,
        (body.withY (body.position.y + d)).rect.overlaps p.bounds = true := by
      intro hd
      rw [← not_clear_iff, not_not]
      exact hfree.resolve_left (Bool.eq_false_iff.1 hd)
    refine ⟨iff_of_false Bool.false_ne_true ?_, iff_of_false Bool.false_ne_true ?_, nofun, nofun,
      fun _ _ => rfl⟩
    · rintro ⟨hdown, hhit⟩
      exact hclear (beq_eq_false_of_lt hdown).2 hhit
    · rintro ⟨hup, hhit⟩
      exact hclear (beq_eq_false_of_lt hup).1 hhit
  · -- a stop at `p`, of which the direction decides whether it is a landing
    obtain ⟨hmoved, hnan⟩ := hy.isNaN_eq_false
    have hover := not_clear_iff.1 hhit
    have hnan' : (slideY platforms body d).1.position.y.isNaN = false := by
      rw [hlast]
      exact hnan
    rw [hy.eq] at hlast
    rw [hcontacts]
    rcases lt_or_lt_of_add hmoved hd with hdown | hup
    · have hnotup : ¬ d < 0 := Binary32.lt_asymm hdown
      unfold contactOf
      rw [if_pos hdown] at hlast ⊢
      refine ⟨iff_of_true rfl ⟨hdown, hover⟩, iff_of_false Bool.false_ne_true fun h => hnotup h.1,
        fun _ => ⟨hnan', p, hp, hcolumns, ?_⟩, nofun, nofun⟩
      rw [hlast, stopAt, decide_eq_true hdown, Bool.or_true]
    · have hnotdown : ¬ 0 < d := Binary32.lt_asymm hup
      unfold contactOf
      rw [if_neg hnotdown] at hlast ⊢
      refine ⟨iff_of_false Bool.false_ne_true fun h => hnotdown h.1, iff_of_true rfl ⟨hup, hover⟩,
        nofun, fun _ => ⟨hnan', p, hp, hcolumns, ?_⟩, nofun⟩
      rw [hlast, stopAt, decide_eq_false hnotdown, Bool.or_false]
      rfl

/-! ### Steps -/

theorem contactOf_landed : (contactOf d).landed = decide (0 < d) := by
  unfold contactOf
  split_ifs with h
  · exact (decide_eq_true h).symm
  · exact (decide_eq_false h).symm

/-- A body that does not stand when it begins to fall stands afterwards exactly if it has landed. -/
theorem onGround_slideY (h : body.onGround = false) (d : Float32) :
    (slideY platforms body d).1.onGround = (slideY platforms body d).2.landed := by
  rcases slideY_cases platforms body d with
    ⟨-, hslide⟩ | ⟨-, -, ⟨p, hp, y, hcolumns, hy, hlast⟩, hcontacts⟩
  · rw [hslide]
    exact h
  · rw [hlast, hcontacts, contactOf_landed]
    show (body.onGround || decide (0 < d)) = decide (0 < d)
    rw [h, Bool.false_or]

theorem airborne_eq (body : Body) (heading : Heading) (jump : Bool) (dt : Float32) :
    body.airborne heading jump dt =
      { body with
        velocity := (body.integrate heading jump dt).1.velocity
        onGround := false } := by
  obtain ⟨velocity, onGround, h⟩ := integrate_eq body heading jump dt
  unfold Body.airborne
  rw [h]

theorem step_eq_slides (platforms : List Platform) (body : Body) (heading : Heading) (jump : Bool)
    (dt : Float32) :
    let delta := (body.integrate heading jump dt).2
    let slid := slideX platforms (body.airborne heading jump dt) delta.x
    let settled := slideY platforms slid.1 delta.y
    step platforms body heading jump dt = (settled.1, { settled.2 with wall := slid.2 }) := rfl

/-- **A body stands** after a step exactly if it has landed in it. -/
theorem onGround_step (platforms : List Platform) (body : Body) (heading : Heading) (jump : Bool)
    (dt : Float32) :
    (step platforms body heading jump dt).1.onGround =
      (step platforms body heading jump dt).2.landed := by
  rw [step_eq_slides]
  refine onGround_slideY ?_ _
  obtain ⟨x, hslid⟩ :=
    slideX_eq platforms (body.airborne heading jump dt) (body.integrate heading jump dt).2.x
  rw [hslid]
  rfl

/-- **Contacts and footing tell the truth.** In any step, among any platforms and with any numbers:
what the horizontal move reports as a wall is true, and what the vertical move reports as a landing
or a bump is true. The vertical move begins where the horizontal one has ended, and does not move
the body sideways. A body stands after a step exactly if it has landed, and it never lands and bumps
into something in the same step. Size, tuning and horizontal velocity are what they were when the
moves began. -/
theorem contacts_tell_truth (platforms : List Platform) (body : Body) (heading : Heading)
    (jump : Bool) (dt : Float32) :
    let delta := (body.integrate heading jump dt).2
    let driven := body.airborne heading jump dt
    let slid := (slideX platforms driven delta.x).1
    let last := (step platforms body heading jump dt).1
    let contacts := (step platforms body heading jump dt).2
    WallReport platforms delta.x (driven.withX (body.position.x + delta.x)) slid contacts.wall ∧
      FallReport platforms delta.y (slid.withY (body.position.y + delta.y)) last contacts ∧
      last.position.x = slid.position.x ∧
      last.onGround = contacts.landed ∧
      ¬ (contacts.landed = true ∧ contacts.headBump = true) ∧
      last.build = body.build ∧
      last.velocity.x = (body.integrate heading jump dt).1.velocity.x := by
  intro delta driven slid last contacts
  have hwall := wallReport_slideX platforms driven delta.x
  have hfall := fallReport_slideY platforms slid delta.y
  have hdriven : driven = { body with
      velocity := (body.integrate heading jump dt).1.velocity
      onGround := false } := airborne_eq body heading jump dt
  -- what each of the two moves may have written
  obtain ⟨x, hx⟩ := slideX_eq platforms driven delta.x
  obtain ⟨y, vy, onGround, hy⟩ := slideY_eq platforms slid delta.y
  have hslid : slid = driven.withX x := hx
  have hlast : last = { slid.withY y with velocity := ⟨slid.velocity.x, vy⟩, onGround } := hy
  have hstart : driven.position = body.position := by rw [hdriven]
  have hheight : slid.position.y = body.position.y := by
    rw [hslid, ← hstart]
    rfl
  rw [hstart] at hwall
  rw [hheight] at hfall
  refine ⟨hwall, ⟨hfall.landed_iff, hfall.headBump_iff, hfall.landed, hfall.bumped, hfall.free⟩,
    ?_, onGround_step platforms body heading jump dt, ?_, build_step platforms body heading jump dt,
    ?_⟩
  · rw [hlast]
    rfl
  · rintro ⟨hlanded, hbumped⟩
    exact Binary32.lt_asymm (hfall.landed_iff.1 hlanded).1 (hfall.headBump_iff.1 hbumped).1
  · rw [hlast, hslid, hdriven]
    rfl

end Collision

end Sidescroller
