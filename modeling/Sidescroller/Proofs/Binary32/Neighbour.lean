import Sidescroller.Proofs.Binary32.Clamp

/-!
# Rounding between neighbours

A sum or a difference of finite numbers is the exact one, rounded, and rounding does not jump over a
number: what a number is not below before rounding it is not below afterwards. So a rounded result
can be traced back to the exact one up to its neighbours.

* `lt_of_lt_roundValue`, `lt_of_roundValue_lt` — a number on one side of the rounded value is on
  that side of the exact one;
* `value_sub` — the difference of finite numbers; `value_lt_of_lt_add`, `le_add_of_value_le` — an
  edge that a sum is compared with;
* `nextAbove` — the neighbour above, and `lt_nextAbove`, `nextAbove_le` — that it is one.
-/

namespace Sidescroller.Binary32

variable {x y w edge : Float32} {v : Int}

/-! ### Rounded and exact values -/

/-- A number below the rounded value is below the exact one. -/
theorem lt_of_lt_roundValue (hy : y.isNaN = false) (h : value y < roundValue v) : value y < v := by
  by_contra hle
  have hmono : roundValue v ≤ roundValue (value y) := roundValue_mono (Int.not_lt.1 hle)
  rw [roundValue_value hy] at hmono
  omega

/-- A number above the rounded value is above the exact one. -/
theorem lt_of_roundValue_lt (hy : y.isNaN = false) (h : roundValue v < value y) : v < value y := by
  by_contra hle
  have hmono : roundValue (value y) ≤ roundValue v := roundValue_mono (Int.not_lt.1 hle)
  rw [roundValue_value hy] at hmono
  omega

theorem pattern_lt_of_natAbs_value_lt (hx : x.isNaN = false)
    (h : (value x).natAbs < infiniteUnits) : pattern x < infinitePattern := by
  refine (pattern_cases hx).resolve_left fun hinf => ?_
  have htop := natAbs_value_of_infinite hinf
  omega

/-- **The difference of finite numbers** is the exact difference, rounded. -/
theorem value_sub (hx : pattern x < infinitePattern) (hy : pattern y < infinitePattern) :
    (x - y).isNaN = false ∧ value (x - y) = roundValue (value x - value y) := by
  obtain ⟨hneg, hvalue⟩ := value_neg (isNaN_eq_false_iff.2 hy.le)
  have hfin : pattern (-y) < infinitePattern := by
    refine pattern_lt_of_natAbs_value_lt hneg ?_
    have hlt := natAbs_value_lt hy
    omega
  obtain ⟨hsum, hround⟩ := value_add hx hfin
  rw [hvalue, ← Int.sub_eq_add_neg] at hround
  rw [Binary32.sub_eq_add_neg]
  exact ⟨hsum, hround⟩

/-- An edge that a sum passes is passed by the exact sum. -/
theorem value_lt_of_lt_add (hx : pattern x < infinitePattern) (hw : pattern w < infinitePattern)
    (h : edge < x + w) : value edge < value x + value w := by
  obtain ⟨hedge, -, hlt⟩ := lt_iff.1 h
  rw [(value_add hx hw).2] at hlt
  exact lt_of_lt_roundValue hedge hlt

/-- An edge that the exact sum reaches is reached by the sum. -/
theorem le_add_of_value_le (hedge : edge.isNaN = false) (hx : pattern x < infinitePattern)
    (hw : pattern w < infinitePattern) (h : value edge ≤ value x + value w) : edge ≤ x + w := by
  obtain ⟨hsum, hvalue⟩ := value_add hx hw
  have hmono := roundValue_mono h
  rw [roundValue_value hedge, ← hvalue] at hmono
  exact le_iff.2 ⟨hedge, hsum, hmono⟩

/-! ### The neighbour above -/

/-- The neighbour above: the smallest number that is larger. -/
def nextAbove (x : Float32) : Float32 := -nextBelow (-x)

theorem neg_lt_neg_iff (hx : x.isNaN = false) (hy : y.isNaN = false) : -y < -x ↔ x < y := by
  obtain ⟨hnegx, hvaluex⟩ := value_neg hx
  obtain ⟨hnegy, hvaluey⟩ := value_neg hy
  rw [lt_iff, lt_iff, and_iff_right hnegy, and_iff_right hnegx, and_iff_right hx,
    and_iff_right hy]
  omega

/-- A number that is not the highest one has a neighbour above, with the value that `nextBelow`
reaches from the other side. -/
theorem value_nextAbove (h : x < y) :
    (nextAbove x).isNaN = false ∧ (nextBelow (-x)).isNaN = false ∧
      value (nextAbove x) = -value (nextBelow (-x)) := by
  obtain ⟨hx, hy, -⟩ := lt_iff.1 h
  obtain ⟨hnan, -⟩ := rank_nextBelow ((neg_lt_neg_iff hx hy).2 h)
  obtain ⟨hneg, hvalue⟩ := value_neg hnan
  exact ⟨hneg, hnan, hvalue⟩

theorem lt_nextAbove (h : x < y) : x < nextAbove x := by
  obtain ⟨hx, hy, -⟩ := lt_iff.1 h
  obtain ⟨habove, -, hvalue⟩ := value_nextAbove h
  obtain ⟨-, hrank⟩ := rank_nextBelow ((neg_lt_neg_iff hx hy).2 h)
  have hlt : value (nextBelow (-x)) < value (-x) := value_lt_iff_rank_lt.2 (by omega)
  rw [(value_neg hx).2] at hlt
  exact lt_iff.2 ⟨hx, habove, by omega⟩

/-- **Nothing lies between** a number and its neighbour above. -/
theorem nextAbove_le (h : x < y) : nextAbove x ≤ y := by
  obtain ⟨hx, hy, -⟩ := lt_iff.1 h
  obtain ⟨habove, -, hvalue⟩ := value_nextAbove h
  have hneg := (neg_lt_neg_iff hx hy).2 h
  obtain ⟨-, hrank⟩ := rank_nextBelow hneg
  have hlt : rank (-y) < rank (-x) := value_lt_iff_rank_lt.1 (lt_iff.1 hneg).2.2
  have hle : value (-y) ≤ value (nextBelow (-x)) := value_le_iff_rank_le.2 (by omega)
  rw [(value_neg hy).2] at hle
  exact le_iff.2 ⟨habove, hy, by omega⟩

end Sidescroller.Binary32
