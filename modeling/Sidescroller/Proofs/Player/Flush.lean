import Sidescroller.Proofs.Binary32.Neighbour
import Sidescroller.Proofs.Player.Ejection

/-!
# Flush positions

Where a body is flush before an edge is found by a walk: from the rounded difference of edge and
extent down to the first position whose far side does not pass the edge. Without a bound on the
walk it is not obvious that it ends, since a step down may be lost when the extent is added again.
It ends after one step: the rounded difference is next to the exact one, so that the neighbour below
it is not above the exact one, and its far side does not pass the edge.

The position that is found is the largest one only as far as exact sums are concerned. Further on
the exact far side passes the edge, but rounding may put it back onto the edge.

* `Walk` — the walk, as long as it may be; `walk_ends_after_one_step` — and how long it is;
* `value_lt_of_flushBefore_lt`, `le_add_of_flushBefore_lt` — the far sides of positions further on;
* `largest_flushBefore_iff` — when the flush position is the largest one;
* `stop?_behind`, from which `slideX_behind` and `slideY_behind` — a body that was clear of all
  platforms is put behind where it was only before such an edge;
* `largest_but_for_rounding` — all this for positions and for moves.
-/

namespace Sidescroller.Collision

open Binary32

variable {edge size position last last' x y : Float32} {steps steps' : List Float32}

/-! ### The walk -/

/-- **The walk down** from a position to a last one, for which nothing but the edge sets an end. The
list has the positions that it steps down from, in their order. -/
inductive Walk (edge size : Float32) : Float32 → List Float32 → Float32 → Prop
  | rest {position : Float32} (h : ¬ edge < position + size) : Walk edge size position [] position
  | down {position last : Float32} {steps : List Float32} (h : edge < position + size)
      (walk : Walk edge size (nextBelow position) steps last) :
      Walk edge size position (position :: steps) last

/-- There is one way to walk. -/
theorem Walk.unique (walk : Walk edge size position steps last)
    (walk' : Walk edge size position steps' last') : steps' = steps ∧ last' = last := by
  induction walk generalizing steps' last' with
  | rest h =>
    cases walk' with
    | rest => exact ⟨rfl, rfl⟩
    | down h' => exact absurd h' h
  | down h _ ih =>
    cases walk' with
    | rest h' => exact absurd h h'
    | down _ walk' =>
      obtain ⟨hsteps, hlast⟩ := ih walk'
      exact ⟨congrArg _ hsteps, hlast⟩

/-- If the far side at the rounded difference passes the edge, no infinity is involved. -/
theorem finite_of_lt_sub_add (h : edge < edge - size + size) :
    pattern edge < infinitePattern ∧ pattern size < infinitePattern := by
  obtain ⟨hedge, hsum, hlt⟩ := lt_iff.1 h
  obtain ⟨hsub, hsize⟩ := isNaN_of_add hsum
  obtain ⟨hneg, hvalue⟩ := value_neg hsize
  have hdiff : (edge + -size).isNaN = false := Binary32.sub_eq_add_neg edge size ▸ hsub
  constructor
  · refine (pattern_cases hedge).resolve_left fun hinf => ?_
    -- an infinite edge is its own difference, and the sum that is compared with it
    obtain ⟨-, hself⟩ := value_add_eq_left hinf hdiff
    rw [← Binary32.sub_eq_add_neg] at hself
    have hsubinf : pattern (edge - size) = infinitePattern := by
      refine (pattern_cases hsub).resolve_right fun hfin => ?_
      have hsmall := natAbs_value_lt hfin
      rw [hself, natAbs_value_of_infinite hinf] at hsmall
      exact Nat.lt_irrefl _ hsmall
    obtain ⟨-, hsumvalue⟩ := value_add_eq_left hsubinf hsum
    omega
  · refine (pattern_cases hsize).resolve_left fun hinf => ?_
    -- an infinite extent would be taken away and added again
    have hneginf : pattern (-size) = infinitePattern := by
      refine (pattern_cases hneg).resolve_right fun hfin => ?_
      have hsmall := natAbs_value_lt hfin
      have htop := natAbs_value_of_infinite hinf
      omega
    rw [Binary32.add_comm] at hdiff hsum
    obtain ⟨-, hsubvalue⟩ := value_add_eq_left hneginf hdiff
    obtain ⟨hne, -⟩ := value_add_eq_left hinf hsum
    rw [Binary32.sub_eq_add_neg, Binary32.add_comm, hsubvalue] at hne
    exact hne hvalue

/-- **One step down is enough.** -/
theorem not_lt_nextBelow_sub_add (h : edge < edge - size + size) :
    ¬ edge < nextBelow (edge - size) + size := by
  obtain ⟨hedge, hsize⟩ := finite_of_lt_sub_add h
  obtain ⟨hsub, hround⟩ := value_sub hedge hsize
  obtain ⟨hbelow, hrank⟩ := rank_nextBelow (negativeInfinity_lt h)
  have hlt : value (nextBelow (edge - size)) < value (edge - size) :=
    value_lt_iff_rank_lt.2 (by omega)
  intro hpass
  -- the neighbour is a finite number, since it is neither the lowest nor the highest one
  have hfinite : pattern (nextBelow (edge - size)) < infinitePattern := by
    refine pattern_lt_of_natAbs_value_lt hbelow ?_
    obtain ⟨-, -, hlow⟩ := lt_iff.1 (negativeInfinity_lt hpass)
    rw [value_negativeInfinity] at hlow
    have hhigh := natAbs_value_le hsub
    omega
  -- it is below the rounded difference, so it is below the exact one
  have hexact : value (nextBelow (edge - size)) < value edge - value size :=
    lt_of_lt_roundValue hbelow (hround ▸ hlt)
  have hpassed := value_lt_of_lt_add hfinite hsize hpass
  omega

theorem retreat_of_not_lt (n : Nat) (h : ¬ edge < position + size) :
    retreat edge size n position = position := by
  cases n with
  | zero => rfl
  | succ n => rw [retreat, if_neg h]

/-- **Where the walk ends**: at the rounded difference, or one position below it. -/
theorem flushBefore_eq (edge size : Float32) :
    flushBefore edge size =
      if edge < edge - size + size then nextBelow (edge - size) else edge - size := by
  unfold flushBefore
  split_ifs with h
  · obtain ⟨-, hrank⟩ := rank_nextBelow (negativeInfinity_lt h)
    rw [← hrank, retreat, if_pos h]
    exact retreat_of_not_lt _ (not_lt_nextBelow_sub_add h)
  · exact retreat_of_not_lt _ h

/-- The walk takes a step if the far side passes the edge at the rounded difference. -/
theorem walk_flushBefore (edge size : Float32) :
    Walk edge size (edge - size) (if edge < edge - size + size then [edge - size] else [])
      (flushBefore edge size) := by
  rw [flushBefore_eq]
  split_ifs with h
  · exact .down h (.rest (not_lt_nextBelow_sub_add h))
  · exact .rest h

/-- **The walk ends after at most one step**, whatever the edge and the extent are. There is one
walk from the rounded difference, and it leads to the flush position. It steps down at most once and
from a number above negative infinity, and where it ends the far side does not pass the edge. -/
theorem walk_ends_after_one_step (edge size : Float32) :
    ∃ steps, (∀ steps' last, Walk edge size (edge - size) steps' last ↔
        steps' = steps ∧ last = flushBefore edge size) ∧
      steps.length ≤ 1 ∧
      (∀ position ∈ steps, position.isNaN = false ∧ position ≠ negativeInfinity) ∧
      ¬ edge < flushBefore edge size + size := by
  refine ⟨_, fun steps' last => ⟨(walk_flushBefore edge size).unique, ?_⟩, ?_, ?_,
    not_lt_flushBefore_add edge size⟩
  · rintro ⟨rfl, rfl⟩
    exact walk_flushBefore edge size
  · split_ifs
    · exact le_rfl
    · exact Nat.zero_le 1
  · intro position hposition
    split_ifs at hposition with h
    · obtain rfl := List.mem_singleton.1 hposition
      have hlow := negativeInfinity_lt h
      refine ⟨(lt_iff.1 hlow).2.1, fun heq => ?_⟩
      rw [heq] at hlow
      exact Binary32.lt_irrefl _ hlow
    · cases hposition

/-! ### Positions further on -/

/-- **There is room before an edge**: the edge, the extent and their difference are finite. -/
structure Room (edge size : Float32) : Prop where
  edge_finite : edge.isFinite = true
  size_finite : size.isFinite = true
  sub_finite : (edge - size).isFinite = true

instance (edge size : Float32) : Decidable (Room edge size) :=
  decidable_of_iff
    (edge.isFinite = true ∧ size.isFinite = true ∧ (edge - size).isFinite = true)
    ⟨fun ⟨hedge, hsize, hsub⟩ => ⟨hedge, hsize, hsub⟩,
      fun h => ⟨h.edge_finite, h.size_finite, h.sub_finite⟩⟩

/-- **The largest position** whose far side does not pass the edge. -/
def Largest (edge size position : Float32) : Prop :=
  ¬ edge < position + size ∧ ∀ y, position < y → ¬ y + size ≤ edge

/-- **Further on the exact far side passes the edge.** -/
theorem value_lt_of_flushBefore_lt (room : Room edge size) (h : flushBefore edge size < y) :
    value edge < value y + value size := by
  have hedge := isFinite_iff.1 room.edge_finite
  have hsize := isFinite_iff.1 room.size_finite
  have hsub := isFinite_iff.1 room.sub_finite
  obtain ⟨-, hround⟩ := value_sub hedge hsize
  obtain ⟨hflush, hy, hlt⟩ := lt_iff.1 h
  rw [flushBefore_eq] at hlt
  split_ifs at hlt with hpass
  · -- the walk has stepped down, from a position that is still at most `y`
    obtain ⟨-, hrank⟩ := rank_nextBelow (negativeInfinity_lt hpass)
    have hle : value (edge - size) ≤ value y := by
      rw [value_lt_iff_rank_lt] at hlt
      rw [value_le_iff_rank_le]
      omega
    have hexact := value_lt_of_lt_add hsub hsize hpass
    omega
  · rw [hround] at hlt
    have hexact := lt_of_roundValue_lt hy hlt
    omega

/-- **Further on the far side reaches the edge**, so that it is on the edge or passes it. -/
theorem le_add_of_flushBefore_lt (room : Room edge size) (h : flushBefore edge size < y) :
    edge ≤ y + size := by
  have hedge := isNaN_of_isFinite room.edge_finite
  obtain ⟨hflush, hy, hlt⟩ := lt_iff.1 h
  rcases pattern_cases hy with hinf | hfin
  · -- infinity stays infinity, and it is the positive one
    have hsmall := natAbs_value_lt (isFinite_iff.1 room.size_finite)
    have htop := natAbs_value_of_infinite hinf
    have hlow := natAbs_value_le hflush
    have hbound := natAbs_value_le hedge
    obtain ⟨hsum, hvalue⟩ := value_add_of_ne hinf (isNaN_of_isFinite room.size_finite) (by omega)
    exact le_iff.2 ⟨hedge, hsum, by omega⟩
  · exact le_add_of_value_le hedge hfin (isFinite_iff.1 room.size_finite)
      (value_lt_of_flushBefore_lt room h).le

/-- A far side further on that does not pass the edge is on the edge. -/
theorem add_le_iff_of_flushBefore_lt (room : Room edge size) (h : flushBefore edge size < y) :
    y + size ≤ edge ↔ (y + size == edge) = true := by
  obtain ⟨hedge, hsum, hle⟩ := le_iff.1 (le_add_of_flushBefore_lt room h)
  rw [le_iff, beq_iff, and_iff_right hsum, and_iff_right hedge, and_iff_right hsum,
    and_iff_right hedge]
  omega

theorem flushBefore_lt_nextAbove (room : Room edge size) :
    flushBefore edge size < nextAbove (flushBefore edge size) := by
  have hsub := isNaN_of_isFinite room.sub_finite
  have hle : flushBefore edge size ≤ edge - size := retreat_le _ hsub
  obtain ⟨hflush, -, hvalue⟩ := le_iff.1 hle
  -- positive infinity is above, so there is a neighbour
  obtain ⟨htop, htopvalue⟩ := value_neg isNaN_negativeInfinity
  rw [value_negativeInfinity] at htopvalue
  have hsmall := natAbs_value_lt (isFinite_iff.1 room.sub_finite)
  have hlt : flushBefore edge size < -negativeInfinity := lt_iff.2 ⟨hflush, htop, by omega⟩
  exact lt_nextAbove hlt

/-- **The neighbour above decides** whether the flush position is the largest one. -/
theorem largest_flushBefore_iff (room : Room edge size) :
    Largest edge size (flushBefore edge size) ↔
      (nextAbove (flushBefore edge size) + size == edge) = false := by
  have habove := flushBefore_lt_nextAbove room
  rw [← Bool.not_eq_true, ← add_le_iff_of_flushBefore_lt room habove]
  constructor
  · exact fun hlargest => hlargest.2 _ habove
  · intro hpass
    refine ⟨not_lt_flushBefore_add edge size, fun y hy hle => ?_⟩
    -- from the neighbour on, all far sides pass the edge
    obtain ⟨hedge, hsum, hreach⟩ := le_iff.1 (le_add_of_flushBefore_lt room habove)
    have hnext : edge < nextAbove (flushBefore edge size) + size := by
      by_contra hnot
      exact hpass ((le_iff_not_lt hsum hedge).2 hnot)
    obtain ⟨-, hynan, hvalue⟩ := le_iff.1 (nextAbove_le hy)
    obtain ⟨hysum, -⟩ := isNaN_of_le hle
    exact (le_iff_not_lt hysum hedge).1 hle (lt_add_of_value_le hnext hynan hvalue)

/-! ### Moves -/

/-- `y` is behind `x` for a move by `d`. -/
def Behind (d x y : Float32) : Prop := if 0 < d then y < x else x < y

instance (d x y : Float32) : Decidable (Behind d x y) :=
  inferInstanceAs (Decidable (if 0 < d then y < x else x < y))

/-- A move by itself takes nothing behind where it was. -/
theorem not_behind_add (d x : Float32) : ¬ Behind d x (x + d) := by
  have hzero : Same (0 + x) x := .zero_add (by decide) x
  unfold Behind
  rw [Binary32.add_comm]
  split_ifs with hd
  · rw [← hzero.lt_iff_right]
    exact not_add_lt_add (Binary32.lt_asymm hd) x
  · rw [← hzero.lt_iff_left]
    exact not_add_lt_add hd x

/-- **A body is flush beyond its place**: the move goes to greater numbers, and there is a platform
beside the body whose near edge its far side is on, although it stands beyond the flush position.
Along the axis a rectangle begins at `lo` and has the extent `extent`. -/
def Beyond (lo extent : Rect → Float32) (Beside : Rect → Rect → Prop) (platforms : List Platform)
    (d : Float32) (start : Rect) : Prop :=
  0 < d ∧ ∃ p ∈ platforms, Beside start p.bounds ∧
    (lo start + extent start == lo p.bounds) = true ∧
    flushBefore (lo p.bounds) (extent start) < lo start

/-- **A push** takes a body behind where it was clear of all platforms only if it was flush beyond
its place. A push to greater numbers is never too far. -/
theorem stop?_behind {lo hi extent : Rect → Float32} {Beside : Rect → Rect → Prop}
    {platforms obstacles : List Platform} {start : Rect} {d : Float32}
    (hroom : ∀ p ∈ platforms, Room (lo p.bounds) (extent start))
    (hclear : ∀ p ∈ platforms, Beside start p.bounds →
      ¬ (lo start < hi p.bounds ∧ lo p.bounds < lo start + extent start))
    (h : stop? (fun p => lo p.bounds) (fun p => hi p.bounds) d (extent start) obstacles = some y)
    (hobs : ∀ o ∈ obstacles, (o ∈ platforms ∧ Beside start o.bounds) ∧
      x < hi o.bounds ∧ lo o.bounds < x + extent start)
    (hx : Behind d (lo start) x → Beyond lo extent Beside platforms d start)
    (hbehind : Behind d (lo start) y) : Beyond lo extent Beside platforms d start := by
  by_cases hahead : Behind d (lo start) x
  · exact hx hahead
  obtain ⟨o, ho, hstop⟩ := stop?_stopsAt h fun o ho => ahead_of_lt (hobs o ho).2.2 (hobs o ho).2.1
  obtain ⟨⟨hmem, hbeside⟩, hfar, hnear⟩ := hobs o ho
  have hy := hstop.eq
  have hapart := hclear o hmem hbeside
  unfold Behind at hahead hbehind
  by_cases hd : 0 < d
  · rw [if_pos hd] at hahead hbehind hy
    rw [hy] at hbehind
    -- the body was before the far edge, since it still was when it was pushed
    have hstart := (lt_iff.1 hbehind).2.1
    have hle : lo start ≤ x := (le_iff_not_lt hstart (lt_iff.1 hfar).1).2 hahead
    have hnot : ¬ lo o.bounds < lo start + extent start := fun hpass =>
      hapart ⟨Binary32.lt_of_le_of_lt hle hfar, hpass⟩
    -- so it was not past the near edge, and that is where rounding had put its far side
    have hroom := hroom o hmem
    obtain ⟨hedge, hsum, -⟩ := le_iff.1 (le_add_of_flushBefore_lt hroom hbehind)
    refine ⟨hd, o, hmem, hbeside, ?_, hbehind⟩
    rw [← add_le_iff_of_flushBefore_lt hroom hbehind, le_iff_not_lt hsum hedge]
    exact hnot
  · rw [if_neg hd] at hahead hbehind hy
    rw [hy] at hbehind
    -- the body was past the near edge, since it still was when it was pushed
    have hstart := (lt_iff.1 hbehind).1
    obtain ⟨-, -, hle⟩ := le_iff.1 ((le_iff_not_lt (lt_iff.1 hfar).1 hstart).2 hahead)
    exact absurd ⟨hbehind, lt_add_of_value_le hnear hstart hle⟩ hapart

/-- Where a body is while it is pushed along an axis: `moved` has it moved there, and if it is
behind where it was, it was flush beyond its place. -/
def Held (lo extent : Rect → Float32) (Beside : Rect → Rect → Prop) (platforms : List Platform)
    (d : Float32) (start : Rect) (moved : Float32 → Rect) (last : Rect) : Prop :=
  ∃ x, last = moved x ∧
    (Behind d (lo start) x → Beyond lo extent Beside platforms d start)

section Slide

variable {platforms : List Platform} {body : Body} {d : Float32}

theorem held_pushX (hclear : Clear platforms body)
    (hroom : ∀ p ∈ platforms, Room p.bounds.left body.size.x) (state next : Body × Bool)
    (hpush : pushX platforms d state = some next)
    (h : Held Rect.left Rect.width Rect.SharesRows platforms d body.rect
      (fun x => (body.withX x).rect) state.1.rect) :
    Held Rect.left Rect.width Rect.SharesRows platforms d body.rect
      (fun x => (body.withX x).rect) next.1.rect := by
  obtain ⟨x, hrect, hx⟩ := h
  obtain ⟨y, hstop, rfl⟩ := Option.map_eq_some_iff.1 hpush
  have hsize : state.1.size.x = body.size.x := congrArg Rect.width hrect
  rw [hrect, hsize, stopX?_eq_stop?] at hstop
  refine ⟨y, congrArg (fun rect : Rect => { rect with x := y }) hrect,
    stop?_behind hroom ?_ hstop ?_ hx⟩
  · exact fun p hp hrows hcolumns => hclear.not_shares hp ⟨hcolumns, hrows⟩
  · -- the body has its rows in common with what it runs into, wherever it is
    intro o ho
    obtain ⟨hmem, hover⟩ := mem_hits.1 ho
    obtain ⟨hcolumns, hrows⟩ := overlaps_iff_shares.1 hover
    exact ⟨⟨hmem, hrows⟩, hcolumns⟩

/-- **A horizontal move** of a body that is clear of all platforms. -/
theorem slideX_behind (hclear : Clear platforms body)
    (hroom : ∀ p ∈ platforms, Room p.bounds.left body.size.x)
    (h : Behind d body.position.x (slideX platforms body d).1.position.x) :
    Beyond Rect.left Rect.width Rect.SharesRows platforms d body.rect := by
  -- the move itself does not take the body back, only a push can
  have hmoved : Held Rect.left Rect.width Rect.SharesRows platforms d body.rect
      (fun x => (body.withX x).rect) (body.withX (body.position.x + d)).rect :=
    ⟨_, rfl, fun hbehind => absurd hbehind (not_behind_add d _)⟩
  have hslide : Held Rect.left Rect.width Rect.SharesRows platforms d body.rect
      (fun x => (body.withX x).rect) (slideX platforms body d).1.rect := by
    unfold slideX
    dsimp only
    split_ifs
    · exact hmoved
    · rw [settleX_eq_settle]
      exact settle_keeps (P := fun (state : Body × Bool) =>
        Held Rect.left Rect.width Rect.SharesRows platforms d body.rect
          (fun x => (body.withX x).rect) state.1.rect) (held_pushX hclear hroom) _ hmoved
  obtain ⟨x, hlast, hx⟩ := hslide
  have hposition : (slideX platforms body d).1.position.x = x := congrArg Rect.x hlast
  rw [hposition] at h
  exact hx h

theorem held_pushY (hclear : Clear platforms body)
    (hroom : ∀ p ∈ platforms, Room p.bounds.top body.size.y) (state next : Body × Contacts)
    (hpush : pushY platforms d state = some next)
    (h : Held Rect.top Rect.height Rect.SharesColumns platforms d body.rect
      (fun y => (body.withY y).rect) state.1.rect) :
    Held Rect.top Rect.height Rect.SharesColumns platforms d body.rect
      (fun y => (body.withY y).rect) next.1.rect := by
  obtain ⟨y, hrect, hy⟩ := h
  obtain ⟨stop, hstop, rfl⟩ := Option.map_eq_some_iff.1 hpush
  have hsize : state.1.size.y = body.size.y := congrArg Rect.height hrect
  rw [hrect, hsize, stopY?_eq_stop?] at hstop
  refine ⟨stop, congrArg (fun rect : Rect => { rect with y := stop }) hrect,
    stop?_behind hroom ?_ hstop ?_ hy⟩
  · exact fun p hp hcolumns hrows => hclear.not_shares hp ⟨hcolumns, hrows⟩
  · -- here the columns are what it has in common
    intro o ho
    obtain ⟨hmem, hover⟩ := mem_hits.1 ho
    obtain ⟨hcolumns, hrows⟩ := overlaps_iff_shares.1 hover
    exact ⟨⟨hmem, hcolumns⟩, hrows⟩

/-- **A vertical move** of a body that is clear of all platforms. -/
theorem slideY_behind (hclear : Clear platforms body)
    (hroom : ∀ p ∈ platforms, Room p.bounds.top body.size.y)
    (h : Behind d body.position.y (slideY platforms body d).1.position.y) :
    Beyond Rect.top Rect.height Rect.SharesColumns platforms d body.rect := by
  -- the move itself does not take the body back, only a push can
  have hmoved : Held Rect.top Rect.height Rect.SharesColumns platforms d body.rect
      (fun y => (body.withY y).rect) (body.withY (body.position.y + d)).rect :=
    ⟨_, rfl, fun hbehind => absurd hbehind (not_behind_add d _)⟩
  have hslide : Held Rect.top Rect.height Rect.SharesColumns platforms d body.rect
      (fun y => (body.withY y).rect) (slideY platforms body d).1.rect := by
    unfold slideY
    dsimp only
    split_ifs
    · exact hmoved
    · rw [settleY_eq_settle]
      exact settle_keeps (P := fun (state : Body × Contacts) =>
        Held Rect.top Rect.height Rect.SharesColumns platforms d body.rect
          (fun y => (body.withY y).rect) state.1.rect) (held_pushY hclear hroom) _ hmoved
  obtain ⟨y, hlast, hy⟩ := hslide
  have hposition : (slideY platforms body d).1.position.y = y := congrArg Rect.y hlast
  rw [hposition] at h
  exact hy h

end Slide

/-- **The flush position is the largest one but for rounding.** Where there is room, the exact far
side of every position further on passes the edge, so that its far side can only not pass the edge
by being rounded onto it. The flush position is the largest one exactly if this does not happen to
its neighbour above. And a move of a body that is clear of all platforms, of which each leaves room,
takes it behind where it was only if that had happened to the body. -/
theorem largest_but_for_rounding (edge size d : Float32) (platforms : List Platform)
    (body : Body) :
    (Room edge size →
      (∀ y, flushBefore edge size < y → value edge < value y + value size ∧
        (y + size ≤ edge ↔ (y + size == edge) = true)) ∧
      (Largest edge size (flushBefore edge size) ↔
        (nextAbove (flushBefore edge size) + size == edge) = false)) ∧
    (Clear platforms body →
      ((∀ p ∈ platforms, Room p.bounds.left body.size.x) →
        Behind d body.position.x (slideX platforms body d).1.position.x →
          Beyond Rect.left Rect.width Rect.SharesRows platforms d body.rect) ∧
      ((∀ p ∈ platforms, Room p.bounds.top body.size.y) →
        Behind d body.position.y (slideY platforms body d).1.position.y →
          Beyond Rect.top Rect.height Rect.SharesColumns platforms d body.rect)) := by
  refine ⟨fun hroom => ⟨fun y hy => ⟨?_, ?_⟩, largest_flushBefore_iff hroom⟩,
    fun hclear => ⟨slideX_behind hclear, slideY_behind hclear⟩⟩
  · exact value_lt_of_flushBefore_lt hroom hy
  · exact add_le_iff_of_flushBefore_lt hroom hy

/-- A floor whose top is at 520. -/
def floor520 : Platform := ⟨⟨0, 520, 400, 40⟩⟩

/-- A body of height 60 that is one position further down than flush on that floor. Rounding puts
its far side onto the floor. -/
def sunken : Body := (Body.spawn {}).withY (Float32.ofBits 0x43E60001)

/-- Before an edge at 460 there is a largest position for an extent of 36. On a floor at 520 a body
of height 60 falls to a place behind where it was. -/
theorem largest_but_for_rounding_floor :
    Room 460 36 ∧ Largest 460 36 (flushBefore 460 36) ∧
      (flushBefore 460 36 < 425 ∧ value 460 < value 425 + value 36) ∧
      Clear [floor520] sunken ∧ (∀ p ∈ [floor520], Room p.bounds.top sunken.size.y) ∧
      Behind 1 sunken.position.y (slideY [floor520] sunken 1).1.position.y ∧
      Beyond Rect.top Rect.height Rect.SharesColumns [floor520] 1 sunken.rect := by
  have hroom : Room 460 36 := by decide
  have hfurther : flushBefore 460 36 < 425 := by decide
  have hclear : Clear [floor520] sunken := by decide
  have hrooms : ∀ p ∈ [floor520], Room p.bounds.top sunken.size.y := by decide
  have hbehind : Behind 1 sunken.position.y (slideY [floor520] sunken 1).1.position.y := by decide
  obtain ⟨hpositions, hmoves⟩ := largest_but_for_rounding 460 36 1 [floor520] sunken
  obtain ⟨hexact, hlargest⟩ := hpositions hroom
  exact ⟨hroom, hlargest.2 (by decide), ⟨hfurther, (hexact 425 hfurther).1⟩, hclear, hrooms,
    hbehind, (hmoves hclear).2 hrooms hbehind⟩

/-- Before an edge at 520 the flush position for an extent of 60 is not the largest one, and a body
that does not overlap the floor is put back behind where it was. -/
theorem flushBefore_not_largest :
    ((520 : Float32).isFinite = true ∧ (60 : Float32).isFinite = true ∧ (0 : Float32) < 60 ∧
      ((520 : Float32) - 60).isFinite = true) ∧
    (flushBefore 520 60 < sunken.position.y ∧ sunken.position.y + 60 ≤ 520) ∧
    Clear [floor520] sunken ∧
    (slideY [floor520] sunken 1).1.position.y < sunken.position.y := by
  refine ⟨⟨by decide, by decide, by decide, by decide⟩, ⟨by decide, by decide⟩, by decide,
    by decide⟩

end Sidescroller.Collision
