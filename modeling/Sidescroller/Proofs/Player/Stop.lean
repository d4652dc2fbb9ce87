import Sidescroller.Player.Collision
import Sidescroller.Proofs.Binary32.Clamp

/-!
# Where a moving body stops

One axis of a collision at a time. Of a platform only the two edges across the axis matter: the near
one, which a body moving to greater numbers meets first, and the far one. A platform is `ahead` of a
body if, as far as the edge that the body meets is concerned, the two may overlap.

* `not_lt_flushBefore_add` — a body that is flush before an edge does not pass it, in rounded
  arithmetic and whatever the numbers are; `flushBefore_le_flushBefore` — and before an edge further
  on it is not further back;
* `stop?_spec` — at the place where a body stops, no obstacle is ahead of it any more, and nothing
  has come to be ahead of it that was not;
* `stop?_stopsAt` — and it is one of the obstacles that stops it, on the side that it came from;
* `countP_ahead_lt` — so each stop leaves fewer platforms ahead than there were before.
-/

namespace Sidescroller.Collision

open Binary32

/-! ### Flush positions -/

theorem isNaN_retreat {edge size : Float32} (n : Nat) {position : Float32}
    (h : position.isNaN = false) : (retreat edge size n position).isNaN = false := by
  induction n generalizing position with
  | zero => exact h
  | succ n ih =>
    unfold retreat
    split_ifs with hlt
    · exact ih (rank_nextBelow (negativeInfinity_lt hlt)).1
    · exact h

/-- A walk down that may take as many steps as there are numbers below its start ends where the far
side does not pass the edge. -/
theorem not_lt_retreat_add {edge size : Float32} {n : Nat} {position : Float32}
    (h : rank position ≤ n) : ¬ edge < retreat edge size n position + size := by
  induction n generalizing position with
  | zero =>
    -- no number has rank zero, so there is nothing left to pass the edge
    change ¬ edge < position + size
    intro hlt
    obtain ⟨-, hrank⟩ := rank_nextBelow (negativeInfinity_lt hlt)
    omega
  | succ n ih =>
    unfold retreat
    split_ifs with hlt
    · obtain ⟨-, hrank⟩ := rank_nextBelow (negativeInfinity_lt hlt)
      exact ih (by omega)
    · exact hlt

/-- **Flush before an edge** means not to pass it. -/
theorem not_lt_flushBefore_add (edge size : Float32) : ¬ edge < flushBefore edge size + size :=
  not_lt_retreat_add le_rfl

/-- From an edge that can be passed, an extent can be taken away. -/
theorem isNaN_sub_of_lt_add {edge x size : Float32} (h : edge < x + size) :
    (edge - size).isNaN = false := by
  obtain ⟨he, hsum, hlt⟩ := lt_iff.1 h
  obtain ⟨-, hsize⟩ := isNaN_of_add hsum
  refine isNaN_sub he hsize fun hinf heq => ?_
  -- the edge would be negative infinity, and an infinite extent to the left does not pass it
  have hedge := natAbs_value_of_infinite hinf
  have hbound := natAbs_value_le hsum
  have hsizeinf := (pattern_cases hsize).resolve_right fun hfin => by
    have := natAbs_value_lt hfin
    omega
  rw [Binary32.add_comm] at hsum hlt
  obtain ⟨-, hval⟩ := value_add_eq_left hsizeinf hsum
  omega

/-- Before an edge that can be passed there is a place to stand. -/
theorem isNaN_flushBefore {edge x size : Float32} (h : edge < x + size) :
    (flushBefore edge size).isNaN = false := isNaN_retreat _ (isNaN_sub_of_lt_add h)

/-- The flush position is behind every position whose far side passes the edge. -/
theorem value_flushBefore_lt {edge x size : Float32} (h : edge < x + size) :
    value (flushBefore edge size) < value x := by
  by_contra hle
  -- from further on, the far side would pass the edge as well
  exact not_lt_flushBefore_add edge size
    (lt_add_of_value_le h (isNaN_flushBefore h) (Int.not_lt.1 hle))

theorem flushBefore_lt {edge x size : Float32} (h : edge < x + size) : flushBefore edge size < x :=
  lt_iff.2 ⟨isNaN_flushBefore h, (isNaN_of_add (lt_iff.1 h).2.1).1, value_flushBefore_lt h⟩

theorem retreat_le {edge size : Float32} (n : Nat) {position : Float32}
    (h : position.isNaN = false) : retreat edge size n position ≤ position := by
  induction n generalizing position with
  | zero => exact Binary32.le_refl h
  | succ n ih =>
    unfold retreat
    split_ifs with hlt
    · obtain ⟨hnan, hrank⟩ := rank_nextBelow (negativeInfinity_lt hlt)
      have hbelow : nextBelow position ≤ position := by
        rw [le_iff, value_le_iff_rank_le]
        exact ⟨hnan, h, by omega⟩
      exact Binary32.le_trans (ih hnan) hbelow
    · exact Binary32.le_refl h

/-- A walk down does not go below a position whose far side does not pass the edge. -/
theorem le_retreat {edge size y : Float32} (hpass : ¬ edge < y + size) (n : Nat)
    {position : Float32} (h : y ≤ position) : y ≤ retreat edge size n position := by
  induction n generalizing position with
  | zero => exact h
  | succ n ih =>
    unfold retreat
    split_ifs with hlt
    · obtain ⟨hy, -, hvalue⟩ := le_iff.1 h
      obtain ⟨hnan, hrank⟩ := rank_nextBelow (negativeInfinity_lt hlt)
      -- the walk has not come to `y` yet, since it goes on
      have hne : ¬ value position ≤ value y := fun hle => hpass (lt_add_of_value_le hlt hy hle)
      rw [value_le_iff_rank_le] at hne hvalue
      refine ih (le_iff.2 ⟨hy, hnan, ?_⟩)
      rw [value_le_iff_rank_le]
      omega
    · exact h

/-- **Flush positions grow** with the edge. -/
theorem flushBefore_le_flushBefore {a b size : Float32} (h : a ≤ b)
    (ha : (a - size).isNaN = false) (hb : (b - size).isNaN = false) :
    flushBefore a size ≤ flushBefore b size := by
  obtain ⟨hanan, hbnan, hle⟩ := le_iff.1 h
  have hsub : a - size ≤ b - size :=
    (le_iff_not_lt ha hb).2 (not_sub_lt_sub ((le_iff_not_lt hanan hbnan).1 h) size)
  have hstart : flushBefore a size ≤ b - size := Binary32.le_trans (retreat_le _ ha) hsub
  -- what does not pass the first edge does not pass the second one either
  refine le_retreat (fun hlt => ?_) _ hstart
  exact not_lt_flushBefore_add a size (Binary32.lt_of_le_of_lt h hlt)

/-! ### Stops -/

/-- Whether the edge that a body at `x` meets when it moves by `d` leaves room for an overlap: the
near edge `a` if it moves to greater numbers, and otherwise the far edge `b`. -/
def ahead (d size x a b : Float32) : Bool := if 0 < d then a < x + size else x < b

theorem ahead_of_lt {d size x a b : Float32} (hnear : a < x + size) (hfar : x < b) :
    ahead d size x a b = true := by
  unfold ahead
  split_ifs
  · exact decide_eq_true hnear
  · exact decide_eq_true hfar

/-- Where a body of extent `size` stops along one axis, given the two edges of the platforms. -/
def stop? (near far : Platform → Float32) (d size : Float32) (obstacles : List Platform) :
    Option Float32 :=
  if 0 < d then least? (obstacles.map fun platform => flushBefore (near platform) size)
  else greatest? (obstacles.map far)

theorem stopX?_eq_stop? :
    stopX? = stop? (fun platform => platform.bounds.left) (fun platform => platform.bounds.right) :=
  rfl

theorem stopY?_eq_stop? :
    stopY? = stop? (fun platform => platform.bounds.top) (fun platform => platform.bounds.bottom) :=
  rfl

section Stop

variable {near far : Platform → Float32} {d size x y : Float32} {obstacles : List Platform}

/-- Only where nothing is in the way there is nothing to stop at. -/
theorem stop?_eq_none_iff : stop? near far d size obstacles = none ↔ obstacles = [] := by
  unfold stop?
  split_ifs
  · rw [least?_eq_none_iff, List.map_eq_nil_iff]
  · rw [greatest?_eq_none_iff, List.map_eq_nil_iff]

/-- **A stop** leaves no obstacle ahead, and no edge comes to be ahead that was not. -/
theorem stop?_spec (h : stop? near far d size obstacles = some y)
    (hobs : ∀ o ∈ obstacles, ahead d size x (near o) (far o) = true) :
    (∀ o ∈ obstacles, ahead d size y (near o) (far o) = false) ∧
      ∀ a b, ahead d size y a b = true → ahead d size x a b = true := by
  unfold stop? at h
  unfold ahead at hobs ⊢
  by_cases hd : 0 < d
  · -- to greater numbers: before the first near edge
    simp only [if_pos hd, decide_eq_true_iff, decide_eq_false_iff_not] at h hobs ⊢
    obtain ⟨hmem, hleast⟩ := least?_spec h
    obtain ⟨first, hfirst, rfl⟩ := List.mem_map.1 hmem
    have hpass := hobs first hfirst
    refine ⟨fun o ho hlt => ?_, fun a _ hlt => ?_⟩
    · -- the stop is not behind the flush position of `o`
      have hnan := isNaN_flushBefore (hobs o ho)
      obtain ⟨-, hle⟩ := hleast _ (List.mem_map_of_mem ho) hnan
      exact not_lt_flushBefore_add _ _ (lt_add_of_value_le hlt hnan hle)
    · -- the stop is behind the body's place, and so is its far side
      have hx := (isNaN_of_add (lt_iff.1 hpass).2.1).1
      exact lt_add_of_value_le hlt hx (value_flushBefore_lt hpass).le
  · -- to smaller numbers: behind the last far edge
    simp only [if_neg hd, decide_eq_true_iff, decide_eq_false_iff_not] at h hobs ⊢
    obtain ⟨hmem, hgreatest⟩ := greatest?_spec h
    obtain ⟨last, hlast, rfl⟩ := List.mem_map.1 hmem
    obtain ⟨hx, -, hpass⟩ := lt_iff.1 (hobs last hlast)
    refine ⟨fun o ho hlt => ?_, fun _ b hlt => ?_⟩
    · -- the stop is not before the far edge of `o`
      obtain ⟨-, ho', hval⟩ := lt_iff.1 hlt
      obtain ⟨-, hle⟩ := hgreatest _ (List.mem_map_of_mem ho) ho'
      omega
    · obtain ⟨-, hb, hval⟩ := lt_iff.1 hlt
      exact lt_iff.2 ⟨hx, hb, by omega⟩

/-- **A body is stopped**: it has an extent of `size` along the axis, a move by `d` has brought it
to `x`, and it is put to `y`. This is where a platform with the edges `near` and `far` stops it, and
it is on the side that the body came from. -/
structure StopsAt (near far d size x y : Float32) : Prop where
  eq : y = if 0 < d then flushBefore near size else far
  back : if 0 < d then y < x else x < y

/-- A stop is one of the obstacles' doing. -/
theorem stop?_stopsAt (h : stop? near far d size obstacles = some y)
    (hobs : ∀ o ∈ obstacles, ahead d size x (near o) (far o) = true) :
    ∃ o ∈ obstacles, StopsAt (near o) (far o) d size x y := by
  unfold stop? at h
  unfold ahead at hobs
  by_cases hd : 0 < d
  · simp only [if_pos hd, decide_eq_true_iff] at h hobs
    obtain ⟨first, hfirst, rfl⟩ := List.mem_map.1 (least?_spec h).1
    have hpass := hobs first hfirst
    refine ⟨first, hfirst, (if_pos hd).symm, ?_⟩
    rw [if_pos hd]
    exact flushBefore_lt hpass
  · simp only [if_neg hd, decide_eq_true_iff] at h hobs
    obtain ⟨last, hlast, rfl⟩ := List.mem_map.1 (greatest?_spec h).1
    refine ⟨last, hlast, (if_neg hd).symm, ?_⟩
    rw [if_neg hd]
    exact hobs last hlast

/-- A body that is stopped twice is stopped by the second platform. -/
theorem StopsAt.trans {a b a' b' z : Float32} (h : StopsAt a b d size x y)
    (h' : StopsAt a' b' d size y z) : StopsAt a' b' d size x z where
  eq := h'.eq
  back := by
    have hxy := h.back
    have hyz := h'.back
    split_ifs at hxy hyz ⊢
    · exact Binary32.lt_trans hyz hxy
    · exact Binary32.lt_trans hxy hyz

end Stop

/-- **Each stop leaves fewer platforms ahead**, if the obstacles are platforms that are ahead. -/
theorem countP_ahead_lt {near far : Platform → Float32} {d size x y : Float32}
    {obstacles platforms : List Platform} (h : stop? near far d size obstacles = some y)
    (hobs : ∀ o ∈ obstacles, o ∈ platforms ∧ ahead d size x (near o) (far o) = true) :
    platforms.countP (fun p => ahead d size y (near p) (far p))
      < platforms.countP (fun p => ahead d size x (near p) (far p)) := by
  obtain ⟨hgone, hold⟩ := stop?_spec h fun o ho => (hobs o ho).2
  -- something was in the way, or there were no stop
  have hne : obstacles ≠ [] := fun hnil => by
    rw [stop?_eq_none_iff.2 hnil] at h
    cases h
  obtain ⟨o, ho⟩ := List.exists_mem_of_ne_nil _ hne
  obtain ⟨hmem, hahead⟩ := hobs o ho
  -- count the platforms ahead now among those that were ahead before
  have hand : (fun p => ahead d size y (near p) (far p) && ahead d size x (near p) (far p))
      = fun p => ahead d size y (near p) (far p) := by
    funext p
    cases hp : ahead d size y (near p) (far p)
    · rfl
    · rw [hold _ _ hp, Bool.true_and]
  rw [← hand, ← List.countP_filter, List.countP_eq_length_filter (p := fun p => ahead d size x _ _)]
  exact List.countP_lt_length_iff.2
    ⟨o, List.mem_filter.2 ⟨hmem, hahead⟩, hgone o ho⟩

end Sidescroller.Collision
