import Sidescroller.Proofs.Player.Contact

/-!
# Bodies are ejected on the side they came from

A push only ever goes back against the move. So a body does not end further on than where the move
took it, and a platform whose far side the move has not passed is not passed by the pushes either.
Since the body ends outside all platforms, it ends on the near side of each of these, also of those
that it did not overlap in the last round, and however the platforms are stacked.

This needs finite numbers: a NaN is on no side of anything.

* `slideX_back`, `slideY_back` — a move ends no further on than where it took the body;
* `Ejected` — the two sides of a platform, and on which of them a body ends; `ejected_of_clear` — it
  is the near one;
* `ejected_on_near_side` — what this means for the moves along both axes.
-/

namespace Sidescroller

open Binary32

/-- A rectangle of finite numbers. Its far edges may still be infinite. -/
structure Rect.Finite (r : Rect) : Prop where
  x : r.x.isFinite = true
  y : r.y.isFinite = true
  width : r.width.isFinite = true
  height : r.height.isFinite = true

instance (r : Rect) : Decidable r.Finite :=
  decidable_of_iff
    (r.x.isFinite = true ∧ r.y.isFinite = true ∧ r.width.isFinite = true ∧ r.height.isFinite = true)
    ⟨fun ⟨hx, hy, hw, hh⟩ => ⟨hx, hy, hw, hh⟩, fun h => ⟨h.x, h.y, h.width, h.height⟩⟩

theorem Rect.Finite.edges {r : Rect} (h : r.Finite) :
    (r.left.isNaN = false ∧ r.right.isNaN = false) ∧
      r.top.isNaN = false ∧ r.bottom.isNaN = false := by
  have hx := isNaN_of_isFinite h.x
  have hy := isNaN_of_isFinite h.y
  exact ⟨⟨hx, isNaN_add_of_isFinite hx h.width⟩, hy, isNaN_add_of_isFinite hy h.height⟩

namespace Collision

variable {platforms : List Platform} {body : Body} {d : Float32}

/-! ### Pushes go back -/

/-- `y` is no further on than `x` for a move by `d`. -/
structure Back (d x y : Float32) : Prop where
  le : 0 < d → y ≤ x
  ge : d < 0 → x ≤ y

theorem Back.refl {x : Float32} (h : x.isNaN = false) : Back d x x :=
  ⟨fun _ => Binary32.le_refl h, fun _ => Binary32.le_refl h⟩

theorem StopsAt.toBack {near far size x y : Float32} (h : StopsAt near far d size x y) :
    Back d x y := by
  have hback := h.back
  constructor
  · intro hforward
    rw [if_pos hforward] at hback
    exact Binary32.le_of_lt hback
  · intro hbackward
    rw [if_neg (Binary32.lt_asymm hbackward)] at hback
    exact Binary32.le_of_lt hback

/-- **A horizontal move** ends no further on than where it took the body. -/
theorem slideX_back (platforms : List Platform)
    (hmoved : (body.position.x + d).isNaN = false) :
    ∃ x, (slideX platforms body d).1 = body.withX x ∧ x.isNaN = false ∧
      Back d (body.position.x + d) x := by
  rcases slideX_cases platforms body d with
    ⟨-, hslide⟩ | ⟨-, -, ⟨p, -, x, -, hx, hlast⟩, -⟩
  · exact ⟨_, congrArg Prod.fst hslide, hmoved, .refl hmoved⟩
  · exact ⟨x, hlast, hx.isNaN_eq_false.2, hx.toBack⟩

/-- **A vertical move** ends no further on than where it took the body. -/
theorem slideY_back (platforms : List Platform)
    (hmoved : (body.position.y + d).isNaN = false) :
    ∃ y, (slideY platforms body d).1.rect = (body.withY y).rect ∧ y.isNaN = false ∧
      Back d (body.position.y + d) y := by
  rcases slideY_cases platforms body d with
    ⟨-, hslide⟩ | ⟨-, -, ⟨p, -, y, -, hy, hlast⟩, -⟩
  · exact ⟨_, congrArg (fun slid => slid.1.rect) hslide, hmoved, .refl hmoved⟩
  · have hrect := congrArg Body.rect hlast
    exact ⟨y, hrect, hy.isNaN_eq_false.2, hy.toBack⟩

/-! ### The near side -/

theorem Clear.not_shares (h : Clear platforms body) {p : Platform} (hp : p ∈ platforms) :
    ¬ (body.rect.SharesColumns p.bounds ∧ body.rect.SharesRows p.bounds) := by
  rw [← overlaps_iff_shares, h p hp]
  exact Bool.false_ne_true

/-- **On the near side.** Along the axis a rectangle extends from `lo` to `hi`, and `Beside` says
that two of them have something in common across it. A move by `d` has taken the body to `moved`,
and in the end it is at `last`. -/
structure Ejected (lo hi : Rect → Float32) (Beside : Rect → Rect → Prop)
    (platforms : List Platform) (d : Float32) (moved last : Rect) : Prop where
  /-- The body does not end further on than where the move took it. -/
  back : Back d (lo moved) (lo last)
  /-- Moving to greater numbers, it ends before every platform that it has not passed. -/
  before : 0 < d → ∀ p ∈ platforms, Beside moved p.bounds → lo moved < hi p.bounds →
    hi last ≤ lo p.bounds
  /-- Moving to smaller numbers, it ends behind every platform that it has not passed. -/
  behind : d < 0 → ∀ p ∈ platforms, Beside moved p.bounds → lo p.bounds < hi moved →
    hi p.bounds ≤ lo last

/-- A body that has gone back, and is clear of what is beside it, is on the near side. -/
theorem ejected_of_clear {lo hi : Rect → Float32} {Beside : Rect → Rect → Prop} {moved last : Rect}
    (hback : Back d (lo moved) (lo last))
    (hclear : (d == 0) = false → ∀ p ∈ platforms, Beside moved p.bounds →
      ¬ (lo last < hi p.bounds ∧ lo p.bounds < hi last))
    (hlo : (lo last).isNaN = false) (hhi : (hi last).isNaN = false)
    (hgrow : lo moved ≤ lo last → ∀ edge, edge < hi moved → edge < hi last)
    (hplatforms : ∀ p ∈ platforms, (lo p.bounds).isNaN = false ∧ (hi p.bounds).isNaN = false) :
    Ejected lo hi Beside platforms d moved last where
  back := hback
  before := by
    intro hd p hp hbeside hfar
    have hfar' : lo last < hi p.bounds := Binary32.lt_of_le_of_lt (hback.le hd) hfar
    -- the far side is still not passed, so the near side must not be either
    rw [le_iff_not_lt hhi (hplatforms p hp).1]
    exact fun hnear => hclear (beq_eq_false_of_lt hd).2 p hp hbeside ⟨hfar', hnear⟩
  behind := by
    intro hd p hp hbeside hnear
    have hnear' : lo p.bounds < hi last := hgrow (hback.ge hd) _ hnear
    rw [le_iff_not_lt (hplatforms p hp).2 hlo]
    exact fun hfar => hclear (beq_eq_false_of_lt hd).1 p hp hbeside ⟨hfar, hnear'⟩

/-- **Bodies are ejected on the side they came from.** Among platforms of finite numbers, let a body
of finite numbers be moved by a finite displacement along one of the axes. Then it ends no further
on than where the move took it. And it ends wholly on the near side of every platform that has
something in common with it across the axis and whose far side was not passed by the move. -/
theorem ejected_on_near_side {platforms : List Platform}
    (hplatforms : ∀ p ∈ platforms, p.bounds.Finite) {body : Body} (hbody : body.rect.Finite)
    {d : Float32} (hd : d.isFinite = true) :
    Ejected Rect.left Rect.right Rect.SharesRows platforms d
        (body.withX (body.position.x + d)).rect (slideX platforms body d).1.rect ∧
      Ejected Rect.top Rect.bottom Rect.SharesColumns platforms d
        (body.withY (body.position.y + d)).rect (slideY platforms body d).1.rect := by
  have hgrow : ∀ {x y size : Float32}, x ≤ y → ∀ edge, edge < x + size → edge < y + size := by
    intro x y size hle edge hlt
    obtain ⟨-, hy, hvalue⟩ := le_iff.1 hle
    exact lt_add_of_value_le hlt hy hvalue
  constructor
  · have hmoved : (body.position.x + d).isNaN = false :=
      isNaN_add_of_isFinite (isNaN_of_isFinite hbody.x) hd
    obtain ⟨x, hlast, hx, hback⟩ := slideX_back platforms hmoved
    rw [hlast]
    refine ejected_of_clear hback ?_ hx (isNaN_add_of_isFinite hx hbody.width) hgrow
      fun p hp => (hplatforms p hp).edges.1
    intro hne p hp hrows hcolumns
    -- the body ends outside all platforms, and its rows are those that it moved with
    have hclear : Clear platforms (slideX platforms body d).1 := clear_slideX hne
    have hapart := hclear.not_shares hp
    rw [hlast] at hapart
    exact hapart ⟨hcolumns, hrows⟩
  · have hmoved : (body.position.y + d).isNaN = false :=
      isNaN_add_of_isFinite (isNaN_of_isFinite hbody.y) hd
    obtain ⟨y, hlast, hy, hback⟩ := slideY_back platforms hmoved
    rw [hlast]
    refine ejected_of_clear hback ?_ hy (isNaN_add_of_isFinite hy hbody.height) hgrow
      fun p hp => (hplatforms p hp).edges.2
    intro hne p hp hcolumns hrows
    -- here its columns are
    have hclear : Clear platforms (slideY platforms body d).1 := clear_slideY hne
    have hapart := hclear.not_shares hp
    rw [hlast] at hapart
    exact hapart ⟨hcolumns, hrows⟩

/-- Two walls stand in each other. The body gets into the second one, from there into the first one,
and ends before both. -/
theorem ejected_on_near_side_walls :
    let first : Platform := ⟨⟨20, 0, 30, 100⟩⟩
    let second : Platform := ⟨⟨40, 0, 50, 100⟩⟩
    let body : Body := { Body.spawn {} with position := ⟨-5, 10⟩, size := ⟨20, 30⟩ }
    let moved := (body.withX (body.position.x + 60)).rect
    let last := (slideX [first, second] body 60).1.rect
    body.rect.Finite ∧ moved.overlaps first.bounds = false ∧
      moved.overlaps second.bounds = true ∧
      last.left ≤ moved.left ∧ last.right ≤ second.bounds.left ∧
      last.right = first.bounds.left := by
  intro first second body moved last
  have hplatforms : ∀ p ∈ [first, second], p.bounds.Finite := by decide
  have hbody : body.rect.Finite := by decide
  have hd : (60 : Float32).isFinite = true := by decide
  obtain ⟨hejected, -⟩ := ejected_on_near_side hplatforms hbody hd
  exact ⟨hbody, by decide, by decide, hejected.back.le (by decide),
    hejected.before (by decide) second (by decide) (by decide) (by decide), by decide⟩

end Collision

end Sidescroller
