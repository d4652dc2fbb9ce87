import Sidescroller.Proofs.Binary32.Same
import Sidescroller.Proofs.Player.Collision

/-!
# The arrangement of the platforms does not matter

Platforms are written down in a list, but only which platforms there are matters to a collision: not
their order, and not how often one of them is listed. Two lists of the same platforms may well give
a body two positions that differ, because of two zeros either may be picked; but the two are the
same number, and everything else is equal.

The argument runs two collisions side by side. A round pushes both bodies or none, and to the same
number. The lists may have different lengths, and so different numbers of rounds; but either number
is enough (`countP_ahead_lt`), and a body that has settled is left alone in the rounds that remain.

* `Body.Agrees` — two bodies that are in one place, as numbers, and otherwise equal;
* `settle` — a push that is repeated as long as there is one; `settle_rel` — two of them;
* `Body.Agrees.slideX`, `Body.Agrees.slideY`, `Body.Agrees.step` — moves and steps on two lists;
* `collision_depends_on_members` — what this means for moves, steps and runs of steps.
-/

namespace Sidescroller

open Binary32

/-! ### Bodies that agree -/

/-- **Two bodies agree**: their positions are the same numbers, and all else is equal. -/
structure Body.Agrees (body body' : Body) : Prop where
  x : Same body.position.x body'.position.x
  y : Same body.position.y body'.position.y
  rest : body.placedAt body'.position = body'

namespace Body.Agrees

variable {body body' : Body}

theorem refl (body : Body) : body.Agrees body where
  x := .refl _
  y := .refl _
  rest := rfl

theorem size_eq (h : body.Agrees body') : body.size = body'.size := by
  have hsize := congrArg Body.size h.rest
  exact hsize

theorem withX (h : body.Agrees body') {x x' : Float32} (hx : Same x x') :
    (body.withX x).Agrees (body'.withX x') where
  x := hx
  y := h.y
  rest := congrArg (Body.withX · x') h.rest

theorem withY (h : body.Agrees body') {y y' : Float32} (hy : Same y y') :
    (body.withY y).Agrees (body'.withY y') where
  x := h.x
  y := hy
  rest := congrArg (Body.withY · y') h.rest

theorem stopAt (h : body.Agrees body') (dy : Float32) {y y' : Float32} (hy : Same y y') :
    (Collision.stopAt body dy y).Agrees (Collision.stopAt body' dy y') where
  x := h.x
  y := hy
  rest := congrArg (Collision.stopAt · dy y') h.rest

end Body.Agrees

namespace Collision

variable {platforms platforms' : List Platform} {body body' : Body}

/-- Bodies that agree overlap the same rectangles. -/
theorem overlaps_of_agrees (h : body.Agrees body') (bounds : Rect) :
    body.rect.overlaps bounds = true ↔ body'.rect.overlaps bounds = true := by
  have hx := h.x.lt_iff_left bounds.right
  have hy := h.y.lt_iff_left bounds.bottom
  have hright := (h.x.add_right body.size.x).lt_iff_right bounds.left
  have hbottom := (h.y.add_right body.size.y).lt_iff_right bounds.top
  rw [overlaps_iff, overlaps_iff]
  -- the far edges are sums with the size, which is the same
  show (body.position.x < bounds.right ∧ bounds.left < body.position.x + body.size.x) ∧
    body.position.y < bounds.bottom ∧ bounds.top < body.position.y + body.size.y ↔
    (body'.position.x < bounds.right ∧ bounds.left < body'.position.x + body'.size.x) ∧
    body'.position.y < bounds.bottom ∧ bounds.top < body'.position.y + body'.size.y
  rw [← h.size_eq, hx, hy, hright, hbottom]

theorem mem_hits_of_agrees (hmem : ∀ p, p ∈ platforms ↔ p ∈ platforms')
    (h : body.Agrees body') (p : Platform) :
    p ∈ hits platforms body.rect ↔ p ∈ hits platforms' body'.rect := by
  rw [mem_hits, mem_hits, hmem p, overlaps_of_agrees h p.bounds]

theorem rel_map {α β γ δ : Type} {r : α → β → Prop} {r' : γ → δ → Prop} {f : α → γ} {g : β → δ}
    (hfg : ∀ a b, r a b → r' (f a) (g b)) {o : Option α} {o' : Option β}
    (h : Option.Rel r o o') : Option.Rel r' (o.map f) (o'.map g) := by
  cases h with
  | none => exact .none
  | some hab => exact .some (hfg _ _ hab)

/-- **Stops** among the same obstacles are the same number. -/
theorem stop?_rel {near far : Platform → Float32} {d size : Float32}
    {obstacles obstacles' : List Platform} (h : ∀ o, o ∈ obstacles ↔ o ∈ obstacles') :
    Option.Rel Same (stop? near far d size obstacles) (stop? near far d size obstacles') := by
  have hmap : ∀ f : Platform → Float32, ∀ x, x ∈ obstacles.map f ↔ x ∈ obstacles'.map f := by
    intro f x
    rw [List.mem_map, List.mem_map]
    exact exists_congr fun o => and_congr_left fun _ => h o
  unfold stop?
  split_ifs
  · exact least?_of_mem_iff (hmap _)
  · exact greatest?_of_mem_iff (hmap _)

/-! ### Settling -/

section Settle

variable {State : Type} {push push' : State → Option State}

/-- Repeats a push as long as there is one, and at most for a number of rounds. -/
def settle (push : State → Option State) : Nat → State → State
  | 0, state => state
  | rounds + 1, state =>
    match push state with
    | none => state
    | some next => settle push rounds next

/-- **Two settlings side by side.** If related states are pushed to related states, or neither is
pushed, and both have rounds enough, then they settle in related states. The two measures say what
is enough; they need not have anything to do with each other. -/
theorem settle_rel {R : State → State → Prop} {measure measure' : State → Nat}
    (hpush : ∀ state state', R state state' → Option.Rel R (push state) (push' state'))
    (hlt : ∀ state next, push state = some next → measure next < measure state)
    (hlt' : ∀ state next, push' state = some next → measure' next < measure' state)
    {rounds rounds' : Nat} {state state' : State} (h : R state state')
    (hrounds : measure state < rounds) (hrounds' : measure' state' < rounds') :
    R (settle push rounds state) (settle push' rounds' state') := by
  induction rounds generalizing rounds' state state' with
  | zero => exact absurd hrounds (Nat.not_lt_zero _)
  | succ rounds ih =>
    cases rounds' with
    | zero => exact absurd hrounds' (Nat.not_lt_zero _)
    | succ rounds' =>
      -- related states are pushed both or neither, so the rounds go on and end together
      have hrel := hpush state state' h
      rw [settle, settle]
      cases hnext : push state with
      | none =>
        cases hnext' : push' state' with
        | none => exact h
        | some next' =>
          rw [hnext, hnext'] at hrel
          cases hrel
      | some next =>
        cases hnext' : push' state' with
        | none =>
          rw [hnext, hnext'] at hrel
          cases hrel
        | some next' =>
          rw [hnext, hnext'] at hrel
          have hlast := hlt state next hnext
          have hlast' := hlt' state' next' hnext'
          exact ih (Option.rel_some_some.1 hrel) (by omega) (by omega)

end Settle

/-- One round of a horizontal move. -/
def pushX (platforms : List Platform) (dx : Float32) (state : Body × Bool) :
    Option (Body × Bool) :=
  (stopX? dx state.1.size.x (hits platforms state.1.rect)).map fun x => (state.1.withX x, true)

/-- One round of a vertical move. -/
def pushY (platforms : List Platform) (dy : Float32) (state : Body × Contacts) :
    Option (Body × Contacts) :=
  (stopY? dy state.1.size.y (hits platforms state.1.rect)).map fun y =>
    (stopAt state.1 dy y,
      if 0 < dy then { state.2 with landed := true } else { state.2 with headBump := true })

theorem settleX_eq_settle (platforms : List Platform) (dx : Float32) (rounds : Nat) (body : Body)
    (pushed : Bool) :
    settleX platforms dx rounds body pushed =
      settle (pushX platforms dx) rounds (body, pushed) := by
  induction rounds generalizing body pushed with
  | zero => rfl
  | succ rounds ih =>
    rw [settleX, settle, pushX]
    cases stopX? dx body.size.x (hits platforms body.rect) with
    | none => rfl
    | some x => exact ih _ _

theorem settleY_eq_settle (platforms : List Platform) (dy : Float32) (rounds : Nat) (body : Body)
    (contacts : Contacts) :
    settleY platforms dy rounds body contacts =
      settle (pushY platforms dy) rounds (body, contacts) := by
  induction rounds generalizing body contacts with
  | zero => rfl
  | succ rounds ih =>
    rw [settleY, settle, pushY]
    cases stopY? dy body.size.y (hits platforms body.rect) with
    | none => rfl
    | some y => exact ih _ _

/-- The platforms ahead of a body that moves horizontally. A push leaves fewer of them. -/
def countAheadX (platforms : List Platform) (dx : Float32) (state : Body × Bool) : Nat :=
  platforms.countP fun p =>
    ahead dx state.1.size.x state.1.position.x p.bounds.left p.bounds.right

/-- The platforms ahead of a body that moves vertically. -/
def countAheadY (platforms : List Platform) (dy : Float32) (state : Body × Contacts) : Nat :=
  platforms.countP fun p =>
    ahead dy state.1.size.y state.1.position.y p.bounds.top p.bounds.bottom

theorem countAheadX_lt {dx : Float32} {state next : Body × Bool}
    (h : pushX platforms dx state = some next) :
    countAheadX platforms dx next < countAheadX platforms dx state := by
  obtain ⟨x, hstop, rfl⟩ := Option.map_eq_some_iff.1 h
  rw [stopX?_eq_stop?] at hstop
  exact countP_ahead_lt hstop fun o ho => ahead_of_mem_hits_x dx ho

theorem countAheadY_lt {dy : Float32} {state next : Body × Contacts}
    (h : pushY platforms dy state = some next) :
    countAheadY platforms dy next < countAheadY platforms dy state := by
  obtain ⟨y, hstop, rfl⟩ := Option.map_eq_some_iff.1 h
  rw [stopY?_eq_stop?] at hstop
  exact countP_ahead_lt hstop fun o ho => ahead_of_mem_hits_y dy ho

/-- Two bodies with what has been found out about each of them. -/
def AgreesWith {α : Type} (state state' : Body × α) : Prop :=
  state.1.Agrees state'.1 ∧ state.2 = state'.2

theorem pushX_rel (hmem : ∀ p, p ∈ platforms ↔ p ∈ platforms') (dx : Float32)
    (state state' : Body × Bool) (h : AgreesWith state state') :
    Option.Rel AgreesWith (pushX platforms dx state) (pushX platforms' dx state') := by
  have hstop : Option.Rel Same (stopX? dx state.1.size.x (hits platforms state.1.rect))
      (stopX? dx state'.1.size.x (hits platforms' state'.1.rect)) := by
    rw [stopX?_eq_stop?, ← h.1.size_eq]
    exact stop?_rel (mem_hits_of_agrees hmem h.1)
  refine rel_map ?_ hstop
  intro x x' hx
  exact ⟨h.1.withX hx, rfl⟩

theorem pushY_rel (hmem : ∀ p, p ∈ platforms ↔ p ∈ platforms') (dy : Float32)
    (state state' : Body × Contacts) (h : AgreesWith state state') :
    Option.Rel AgreesWith (pushY platforms dy state) (pushY platforms' dy state') := by
  have hstop : Option.Rel Same (stopY? dy state.1.size.y (hits platforms state.1.rect))
      (stopY? dy state'.1.size.y (hits platforms' state'.1.rect)) := by
    rw [stopY?_eq_stop?, ← h.1.size_eq]
    exact stop?_rel (mem_hits_of_agrees hmem h.1)
  refine rel_map ?_ hstop
  intro y y' hy
  refine ⟨h.1.stopAt dy hy, ?_⟩
  rw [h.2]

end Collision

/-! ### Moves and steps -/

namespace Body.Agrees

open Collision

variable {platforms platforms' : List Platform} {body body' : Body}

/-- **Horizontal moves** of bodies that agree, among the same platforms. -/
theorem slideX (h : body.Agrees body') (hmem : ∀ p, p ∈ platforms ↔ p ∈ platforms')
    (dx : Float32) :
    AgreesWith (Collision.slideX platforms body dx) (Collision.slideX platforms' body' dx) := by
  have hmoved := h.withX (h.x.add_right dx)
  unfold Collision.slideX
  dsimp only
  split_ifs
  · exact ⟨hmoved, rfl⟩
  · rw [settleX_eq_settle, settleX_eq_settle]
    exact settle_rel (pushX_rel hmem dx) (fun _ _ => countAheadX_lt) (fun _ _ => countAheadX_lt)
      ⟨hmoved, rfl⟩ (Nat.lt_succ_of_le List.countP_le_length)
      (Nat.lt_succ_of_le List.countP_le_length)

/-- **Vertical moves** of bodies that agree, among the same platforms. -/
theorem slideY (h : body.Agrees body') (hmem : ∀ p, p ∈ platforms ↔ p ∈ platforms')
    (dy : Float32) :
    AgreesWith (Collision.slideY platforms body dy) (Collision.slideY platforms' body' dy) := by
  have hmoved := h.withY (h.y.add_right dy)
  unfold Collision.slideY
  dsimp only
  split_ifs
  · exact ⟨hmoved, rfl⟩
  · rw [settleY_eq_settle, settleY_eq_settle]
    exact settle_rel (pushY_rel hmem dy) (fun _ _ => countAheadY_lt) (fun _ _ => countAheadY_lt)
      ⟨hmoved, rfl⟩ (Nat.lt_succ_of_le List.countP_le_length)
      (Nat.lt_succ_of_le List.countP_le_length)

/-- What a body picks up before it moves does not depend on where it is. -/
theorem integrate_placedAt (body : Body) (position : Vec2) (heading : Heading) (jump : Bool)
    (dt : Float32) :
    (body.placedAt position).integrate heading jump dt =
      ((body.integrate heading jump dt).1.placedAt position,
        (body.integrate heading jump dt).2) := by
  have htakeOff : (body.placedAt position).takeOff jump =
      (body.takeOff jump).placedAt position := by
    unfold Body.takeOff
    show (if (jump && body.onGround) = true then _ else _) = _
    split_ifs
    · rfl
    · rfl
  unfold Body.integrate
  rw [htakeOff]
  rfl

/-- **Steps** of bodies that agree, among the same platforms. -/
theorem step (h : body.Agrees body') (hmem : ∀ p, p ∈ platforms ↔ p ∈ platforms')
    (heading : Heading) (jump : Bool) (dt : Float32) :
    AgreesWith (Collision.step platforms body heading jump dt)
      (Collision.step platforms' body' heading jump dt) := by
  have hintegrate := integrate_placedAt body body'.position heading jump dt
  rw [h.rest] at hintegrate
  have hposition : (body.integrate heading jump dt).1.position = body.position := by
    unfold Body.integrate Body.takeOff
    split_ifs <;> rfl
  -- both pick up the same velocity, and are asked for the same displacement
  have hdriven : Agrees { (body.integrate heading jump dt).1 with onGround := false }
      { (body'.integrate heading jump dt).1 with onGround := false } := by
    rw [hintegrate]
    constructor
    · exact hposition ▸ h.x
    · exact hposition ▸ h.y
    · rfl
  have hdelta : (body'.integrate heading jump dt).2 = (body.integrate heading jump dt).2 := by
    rw [hintegrate]
  obtain ⟨hslid, hwall⟩ := hdriven.slideX hmem (body.integrate heading jump dt).2.x
  obtain ⟨hsettled, hcontacts⟩ := hslid.slideY hmem (body.integrate heading jump dt).2.y
  unfold Collision.step
  dsimp only
  rw [hdelta]
  refine ⟨hsettled, ?_⟩
  rw [hwall, hcontacts]

end Body.Agrees

namespace Collision

/-- What a body touches in each of a number of steps. -/
def touches (platforms : List Platform) (body : Body) : List Demand → List Contacts
  | [] => []
  | demand :: rest =>
    let (next, contacts) := step platforms body demand.heading demand.jump demand.dt
    contacts :: touches platforms next rest

/-- **Any number of steps** of bodies that agree, among the same platforms. -/
theorem steps_of_agrees {platforms platforms' : List Platform} {body body' : Body}
    (h : body.Agrees body') (hmem : ∀ p, p ∈ platforms ↔ p ∈ platforms')
    (demands : List Demand) :
    (steps platforms body demands).Agrees (steps platforms' body' demands) ∧
      touches platforms body demands = touches platforms' body' demands := by
  induction demands generalizing body body' with
  | nil => exact ⟨h, rfl⟩
  | cons demand rest ih =>
    obtain ⟨hnext, hcontacts⟩ := h.step hmem demand.heading demand.jump demand.dt
    obtain ⟨hlast, hrest⟩ := ih hnext
    exact ⟨hlast, congrArg₂ List.cons hcontacts hrest⟩

/-- **Only which platforms there are matters.** Let two lists have the same platforms, in any order
and any number of times. Then moves along an axis by any displacement, steps, and runs of steps
touch the same, and leave bodies whose positions are the same numbers, zeros of either sign being
the same and NaN the same as NaN, and which are equal otherwise. -/
theorem collision_depends_on_members {platforms platforms' : List Platform}
    (hmem : ∀ platform, platform ∈ platforms ↔ platform ∈ platforms') (body : Body) :
    (∀ dx, (slideX platforms body dx).1.Agrees (slideX platforms' body dx).1 ∧
      (slideX platforms body dx).2 = (slideX platforms' body dx).2) ∧
    (∀ dy, (slideY platforms body dy).1.Agrees (slideY platforms' body dy).1 ∧
      (slideY platforms body dy).2 = (slideY platforms' body dy).2) ∧
    (∀ heading jump dt,
      (step platforms body heading jump dt).1.Agrees (step platforms' body heading jump dt).1 ∧
      (step platforms body heading jump dt).2 = (step platforms' body heading jump dt).2) ∧
    ∀ demands, (steps platforms body demands).Agrees (steps platforms' body demands) ∧
      touches platforms body demands = touches platforms' body demands := by
  have h := Body.Agrees.refl body
  refine ⟨h.slideX hmem, h.slideY hmem, h.step hmem, steps_of_agrees h hmem⟩

/-- Two walls whose right edges are the two zeros. Which of them the body is put to depends on the
order in which they are listed. -/
theorem collision_depends_on_members_zeros :
    let wall : Platform := ⟨⟨-10, 0, 10, 100⟩⟩
    let line : Platform := ⟨⟨-0, 0, -0, 100⟩⟩
    let body : Body := { Body.spawn {} with position := ⟨-2, 10⟩, size := ⟨20, 30⟩ }
    let before := slideX [wall, line] body (-2)
    let after := slideX [line, wall, wall] body (-2)
    (∀ platform, platform ∈ [wall, line] ↔ platform ∈ [line, wall, wall]) ∧
      before.1.position.x ≠ after.1.position.x ∧
      Same before.1.position.x after.1.position.x ∧ before.2 = after.2 := by
  intro wall line body before after
  have hmem : ∀ platform, platform ∈ [wall, line] ↔ platform ∈ [line, wall, wall] := by
    intro platform
    simp only [List.mem_cons]
    tauto
  obtain ⟨hslide, -⟩ := collision_depends_on_members hmem body
  obtain ⟨hagrees, hwall⟩ := hslide (-2)
  exact ⟨hmem, by decide, hagrees.x, hwall⟩

end Collision

end Sidescroller
