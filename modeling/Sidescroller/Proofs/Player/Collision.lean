import Sidescroller.Proofs.Player.Stop

/-!
# Moves end without overlap

A move along an axis ends with the body outside all platforms, wherever it started, and a step never
brings a body into a platform. Nothing is asked of the numbers: the platforms may overlap each other
or have negative, infinite or missing extents, and so may the body.

* `clear_settleX`, `clear_settleY` — pushing a body out takes at most one round for each platform
  that is ahead of it, and one more;
* `clear_slideX`, `clear_slideY` — so the rounds that a move is given are enough;
* `collision_leaves_no_overlap` — what this means for moves, steps and runs of steps.
-/

namespace Sidescroller.Collision

open Binary32

/-- The body overlaps no platform. -/
def Clear (platforms : List Platform) (body : Body) : Prop :=
  ∀ platform ∈ platforms, body.rect.overlaps platform.bounds = false

instance (platforms : List Platform) (body : Body) : Decidable (Clear platforms body) :=
  inferInstanceAs (Decidable (∀ platform ∈ platforms, _))

variable {platforms : List Platform} {body : Body}

theorem hits_eq_nil_iff : hits platforms body.rect = [] ↔ Clear platforms body := by
  unfold hits Clear
  rw [List.filter_eq_nil_iff]
  simp only [Bool.not_eq_true]

theorem mem_hits {rect : Rect} {platform : Platform} :
    platform ∈ hits platforms rect ↔ platform ∈ platforms ∧ rect.overlaps platform.bounds = true :=
  List.mem_filter

/-- Two rectangles overlap where each has an edge before the other's, on both axes. -/
theorem overlaps_iff {a b : Rect} :
    a.overlaps b = true ↔
      (a.x < b.right ∧ b.left < a.x + a.width) ∧ a.y < b.bottom ∧ b.top < a.y + a.height := by
  unfold Rect.overlaps Rect.left Rect.right Rect.top Rect.bottom
  simp only [Bool.and_eq_true, decide_eq_true_iff, and_assoc]

/-! ### Pushing a body out -/

theorem ahead_of_mem_hits_x (dx : Float32) {o : Platform} (h : o ∈ hits platforms body.rect) :
    o ∈ platforms ∧
      ahead dx body.size.x body.position.x o.bounds.left o.bounds.right = true := by
  obtain ⟨hmem, hover⟩ := mem_hits.1 h
  obtain ⟨⟨hfar, hnear⟩, -⟩ := overlaps_iff.1 hover
  exact ⟨hmem, ahead_of_lt hnear hfar⟩

theorem ahead_of_mem_hits_y (dy : Float32) {o : Platform} (h : o ∈ hits platforms body.rect) :
    o ∈ platforms ∧
      ahead dy body.size.y body.position.y o.bounds.top o.bounds.bottom = true := by
  obtain ⟨hmem, hover⟩ := mem_hits.1 h
  obtain ⟨-, hfar, hnear⟩ := overlaps_iff.1 hover
  exact ⟨hmem, ahead_of_lt hnear hfar⟩

/-- With a round for each platform that is ahead and one more, the body gets out. The induction is
on the rounds: a round in which the body is pushed leaves fewer platforms ahead. -/
theorem clear_settleX {dx : Float32} {rounds : Nat} {body : Body} {pushed : Bool}
    (h : platforms.countP (fun p =>
      ahead dx body.size.x body.position.x p.bounds.left p.bounds.right) < rounds) :
    Clear platforms (settleX platforms dx rounds body pushed).1 := by
  induction rounds generalizing body pushed with
  | zero => exact absurd h (Nat.not_lt_zero _)
  | succ rounds ih =>
    unfold settleX
    rw [stopX?_eq_stop?]
    split
    next hstop => exact hits_eq_nil_iff.1 (stop?_eq_none_iff.1 hstop)
    next x hstop =>
      -- what the body overlaps is ahead of it, so the count goes down
      have hlt := countP_ahead_lt hstop fun o ho => ahead_of_mem_hits_x dx ho
      exact ih (lt_of_lt_of_le hlt (Nat.le_of_lt_succ h))

theorem clear_settleY {dy : Float32} {rounds : Nat} {body : Body} {contacts : Contacts}
    (h : platforms.countP (fun p =>
      ahead dy body.size.y body.position.y p.bounds.top p.bounds.bottom) < rounds) :
    Clear platforms (settleY platforms dy rounds body contacts).1 := by
  induction rounds generalizing body contacts with
  | zero => exact absurd h (Nat.not_lt_zero _)
  | succ rounds ih =>
    unfold settleY
    rw [stopY?_eq_stop?]
    split
    next hstop => exact hits_eq_nil_iff.1 (stop?_eq_none_iff.1 hstop)
    next y hstop =>
      -- what the body overlaps is ahead of it, so the count goes down
      have hlt := countP_ahead_lt hstop fun o ho => ahead_of_mem_hits_y dy ho
      exact ih (lt_of_lt_of_le hlt (Nat.le_of_lt_succ h))

/-! ### Moves -/

/-- **A horizontal move** ends outside all platforms, wherever it starts. -/
theorem clear_slideX {dx : Float32} (h : (dx == 0) = false) :
    Clear platforms (slideX platforms body dx).1 := by
  unfold slideX
  simp only [h, Bool.false_eq_true, if_false]
  exact clear_settleX (Nat.lt_succ_of_le List.countP_le_length)

/-- **A vertical move** ends outside all platforms, wherever it starts. -/
theorem clear_slideY {dy : Float32} (h : (dy == 0) = false) :
    Clear platforms (slideY platforms body dy).1 := by
  unfold slideY
  simp only [h, Bool.false_eq_true, if_false]
  exact clear_settleY (Nat.lt_succ_of_le List.countP_le_length)

/-- Adding a zero to a position may turn one zero into the other, but no overlap depends on it. -/
theorem clear_withX_add_zero {dx : Float32} (hdx : (dx == 0) = true) :
    Clear platforms (body.withX (body.position.x + dx)) ↔ Clear platforms body := by
  unfold Clear
  simp only [← Bool.not_eq_true, overlaps_iff]
  change (∀ p ∈ platforms, ¬ ((body.position.x + dx < _ ∧ _ < body.position.x + dx + _) ∧ _)) ↔ _
  simp only [add_zero_lt_iff hdx, lt_add_zero_add_iff hdx]
  rfl

theorem clear_withY_add_zero {dy : Float32} (hdy : (dy == 0) = true) :
    Clear platforms (body.withY (body.position.y + dy)) ↔ Clear platforms body := by
  unfold Clear
  simp only [← Bool.not_eq_true, overlaps_iff]
  change (∀ p ∈ platforms,
    ¬ (_ ∧ body.position.y + dy < _ ∧ _ < body.position.y + dy + _)) ↔ _
  simp only [add_zero_lt_iff hdy, lt_add_zero_add_iff hdy]
  rfl

theorem Clear.slideX (h : Clear platforms body) (dx : Float32) :
    Clear platforms (slideX platforms body dx).1 := by
  cases hdx : dx == 0
  · exact clear_slideX hdx
  · unfold Collision.slideX
    simp only [hdx, if_true]
    exact (clear_withX_add_zero hdx).2 h

theorem Clear.slideY (h : Clear platforms body) (dy : Float32) :
    Clear platforms (slideY platforms body dy).1 := by
  cases hdy : dy == 0
  · exact clear_slideY hdy
  · unfold Collision.slideY
    simp only [hdy, if_true]
    exact (clear_withY_add_zero hdy).2 h

/-! ### Steps -/

/-- What the body does before it moves leaves it where it is. -/
theorem rect_integrate (body : Body) (heading : Heading) (jump : Bool) (dt : Float32) :
    (body.integrate heading jump dt).1.rect = body.rect := by
  unfold Body.integrate Body.takeOff
  split_ifs <;> rfl

/-- A step keeps a body outside all platforms. -/
theorem Clear.step (h : Clear platforms body) (heading : Heading) (jump : Bool) (dt : Float32) :
    Clear platforms (step platforms body heading jump dt).1 := by
  -- so far only the velocity has changed
  have hdriven : Clear platforms { (body.integrate heading jump dt).1 with onGround := false } := by
    intro platform hmem
    change (body.integrate heading jump dt).1.rect.overlaps platform.bounds = false
    rw [rect_integrate]
    exact h platform hmem
  exact (hdriven.slideX _).slideY _

/-- What is asked of a body for one step: a direction, a jump and a span of time. -/
structure Demand where
  /-- The direction held. -/
  heading : Heading
  /-- Whether a jump is pressed. -/
  jump : Bool
  /-- The time the step takes. -/
  dt : Float32

/-- The body after a number of steps. -/
def steps (platforms : List Platform) (body : Body) (demands : List Demand) : Body :=
  demands.foldl (fun body demand =>
    (step platforms body demand.heading demand.jump demand.dt).1) body

/-- Any number of steps keeps a body outside all platforms. -/
theorem Clear.steps (h : Clear platforms body) (demands : List Demand) :
    Clear platforms (steps platforms body demands) := by
  induction demands generalizing body with
  | nil => exact h
  | cons demand rest ih => exact ih (h.step demand.heading demand.jump demand.dt)

/-- **Collisions leave no overlap.** With rounded arithmetic, and for any platforms: a move along
one axis by anything but zero ends outside all platforms, wherever it starts. A step, and any number
of steps, keeps a body outside that was outside before, and a step that moves vertically at all
brings a body out that was inside. -/
theorem collision_leaves_no_overlap (platforms : List Platform) :
    (∀ body dx, (dx == 0) = false → Clear platforms (slideX platforms body dx).1) ∧
    (∀ body dy, (dy == 0) = false → Clear platforms (slideY platforms body dy).1) ∧
    (∀ body heading jump dt, Clear platforms body →
      Clear platforms (step platforms body heading jump dt).1) ∧
    (∀ body demands, Clear platforms body → Clear platforms (steps platforms body demands)) ∧
    ∀ body heading jump dt, ((body.integrate heading jump dt).2.y == 0) = false →
      Clear platforms (step platforms body heading jump dt).1 := by
  refine ⟨fun _ _ => clear_slideX, fun _ _ => clear_slideY, ?_, ?_, ?_⟩
  · intro body heading jump dt h
    exact h.step heading jump dt
  · intro body demands h
    exact h.steps demands
  · intro body heading jump dt h
    -- the vertical move is the last one
    exact clear_slideY h

/-- A body that stands on a ledge walks and jumps, and one that is inside the ledge gets out. -/
theorem collision_leaves_no_overlap_on_ledge :
    let ledge : Platform := ⟨⟨0, 100, 50, 20⟩⟩
    let standing : Body := { Body.spawn {} with position := ⟨10, 70⟩, size := ⟨20, 30⟩ }
    let inside : Body := standing.withY 95
    ¬ Clear [ledge] inside ∧
      Clear [ledge] (slideX [ledge] inside 3).1 ∧
      Clear [ledge] (slideY [ledge] inside 3).1 ∧
      Clear [ledge] (step [ledge] standing .right true 0.5).1 ∧
      Clear [ledge] (steps [ledge] standing [⟨.right, true, 0.5⟩, ⟨.left, false, 0.5⟩]) ∧
      Clear [ledge] (step [ledge] inside .right true 0.5).1 := by
  intro ledge standing inside
  obtain ⟨hx, hy, hstep, hsteps, hfall⟩ := collision_leaves_no_overlap [ledge]
  exact ⟨by decide, hx _ _ (by decide), hy _ _ (by decide), hstep _ _ _ _ (by decide),
    hsteps _ _ (by decide), hfall _ _ _ _ (by decide)⟩

end Sidescroller.Collision
