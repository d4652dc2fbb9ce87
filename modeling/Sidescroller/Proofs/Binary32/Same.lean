import Sidescroller.Proofs.Binary32.Order

/-!
# The same number

Numbers of binary32 may be told apart without being different numbers: there are two zeros, and NaN
does not even compare with itself. `Same` looks at the number only. Order and sums do not depend on
anything else, and neither does which number of a list is least or greatest: that may be one or the
other of two zeros, but it is the same number in whatever order the list is written down.

* `Same.cases` — two numbers that are the same are equal, or both zero, or both NaN;
* `least?_of_mem_iff`, `greatest?_of_mem_iff` — lists with the same members.
-/

namespace Sidescroller.Binary32

variable {x y z : Float32}

/-- **The same number**: zeros of either sign are the same, and so are a NaN and a NaN. -/
def Same (x y : Float32) : Prop := (x == y) = true ∨ x.isNaN = true ∧ y.isNaN = true

instance (x y : Float32) : Decidable (Same x y) :=
  inferInstanceAs (Decidable (_ ∨ _))

theorem same_iff : Same x y ↔ x.isNaN = y.isNaN ∧ (x.isNaN = false → value x = value y) := by
  unfold Same
  rw [beq_iff]
  cases hx : x.isNaN <;> cases hy : y.isNaN <;> simp

namespace Same

protected theorem refl (x : Float32) : Same x x := same_iff.2 ⟨rfl, fun _ => rfl⟩

protected theorem symm (h : Same x y) : Same y x := by
  obtain ⟨hnan, hval⟩ := same_iff.1 h
  exact same_iff.2 ⟨hnan.symm, fun hy => (hval (hnan.trans hy)).symm⟩

protected theorem trans (h : Same x y) (h' : Same y z) : Same x z := by
  obtain ⟨hnan, hval⟩ := same_iff.1 h
  obtain ⟨hnan', hval'⟩ := same_iff.1 h'
  refine same_iff.2 ⟨hnan.trans hnan', ?_⟩
  intro hx
  calc value x = value y := hval hx
    _ = value z := hval' (hnan.symm.trans hx)

end Same

theorem eq_of_toBits_eq (h : x.toBits = y.toBits) : x = y := by
  cases x with
  | ofModel model =>
    cases y with
    | ofModel model' =>
      cases model
      cases model'
      cases h
      rfl

theorem beq_zero_of_value (hx : x.isNaN = false) (h : value x = 0) : (x == 0) = true :=
  beq_iff.2 ⟨hx, isNaN_zero, h.trans value_zero.symm⟩

/-- Apart from the zeros, numbers of one value are equal. -/
theorem eq_of_value_eq (h : value x = value y) (hne : value x ≠ 0) : x = y := by
  have hrank := value_eq_iff_rank_eq.1 h
  have hzero : rank x ≠ 2 ^ 31 := by
    intro hrank
    exact hne ((value_eq_iff_rank_eq.2 (hrank.trans rank_zero.symm)).trans value_zero)
  refine eq_of_toBits_eq (UInt32.toNat_inj.1 ?_)
  -- on either side of the zeros the bits can be read off the position
  have hx := x.toBits.toNat_lt
  have hy := y.toBits.toNat_lt
  unfold rank at hrank hzero
  dsimp only at hrank hzero
  split_ifs at hrank hzero <;> omega

/-- **What is the same** is equal, or zero on both sides, or NaN on both sides. -/
theorem Same.cases (h : Same x y) :
    x = y ∨ ((x == 0) = true ∧ (y == 0) = true) ∨ x.isNaN = true ∧ y.isNaN = true := by
  rcases h with heq | hnan
  · obtain ⟨hx, hy, hval⟩ := beq_iff.1 heq
    by_cases hzero : value x = 0
    · have hzero' : value y = 0 := hval.symm.trans hzero
      exact Or.inr (Or.inl ⟨beq_zero_of_value hx hzero, beq_zero_of_value hy hzero'⟩)
    · exact Or.inl (eq_of_value_eq hval hzero)
  · exact Or.inr (Or.inr hnan)

/-! ### Order and sums -/

namespace Same

theorem lt_iff_left (h : Same x y) (b : Float32) : x < b ↔ y < b := by
  obtain ⟨hnan, hval⟩ := same_iff.1 h
  rw [lt_iff, lt_iff, ← hnan]
  constructor
  · rintro ⟨hx, hb, hlt⟩
    exact ⟨hx, hb, hval hx ▸ hlt⟩
  · rintro ⟨hx, hb, hlt⟩
    exact ⟨hx, hb, (hval hx).symm ▸ hlt⟩

theorem lt_iff_right (h : Same x y) (a : Float32) : a < x ↔ a < y := by
  obtain ⟨hnan, hval⟩ := same_iff.1 h
  rw [lt_iff, lt_iff, ← hnan]
  constructor
  · rintro ⟨ha, hx, hlt⟩
    exact ⟨ha, hx, hval hx ▸ hlt⟩
  · rintro ⟨ha, hx, hlt⟩
    exact ⟨ha, hx, (hval hx).symm ▸ hlt⟩

theorem le_iff_left (h : Same x y) (b : Float32) : x ≤ b ↔ y ≤ b := by
  obtain ⟨hnan, hval⟩ := same_iff.1 h
  rw [le_iff, le_iff, ← hnan]
  refine and_congr_right fun hx => ?_
  rw [hval hx]

/-- A zero on the left leaves the other operand the number it is. -/
theorem zero_add (hx : (x == 0) = true) (d : Float32) : Same (x + d) d := by
  rw [Binary32.add_comm]
  cases hd : d.isNaN with
  | true => exact Or.inr ⟨isNaN_add_left hd, hd⟩
  | false =>
    obtain ⟨hnan, hval⟩ := value_add_of_beq_zero hd hx
    exact same_iff.2 ⟨hnan.trans hd.symm, fun _ => hval⟩

/-- **Sums** of the same numbers are the same. -/
theorem add_right (h : Same x y) (d : Float32) : Same (x + d) (y + d) := by
  rcases h.cases with rfl | ⟨hx, hy⟩ | ⟨hx, hy⟩
  · exact Same.refl _
  · exact (zero_add hx d).trans (zero_add hy d).symm
  · exact Or.inr ⟨isNaN_add_left hx, isNaN_add_left hy⟩

end Same

/-! ### Least and greatest numbers -/

theorem same_of_atMost (h : AtMost x y) (h' : AtMost y x) : Same x y := by
  cases hx : x.isNaN with
  | false =>
    obtain ⟨hy, hle⟩ := h' hx
    obtain ⟨-, hle'⟩ := h hy
    exact same_iff.2 ⟨hx.trans hy.symm, fun _ => le_antisymm hle' hle⟩
  | true =>
    cases hy : y.isNaN with
    | true => exact Or.inr ⟨hx, hy⟩
    | false => exact absurd ((h hy).1.symm.trans hx) Bool.false_ne_true

theorem same_of_atLeast (h : AtLeast x y) (h' : AtLeast y x) : Same x y := by
  cases hx : x.isNaN with
  | false =>
    obtain ⟨hy, hle⟩ := h' hx
    obtain ⟨-, hle'⟩ := h hy
    exact same_iff.2 ⟨hx.trans hy.symm, fun _ => le_antisymm hle hle'⟩
  | true =>
    cases hy : y.isNaN with
    | true => exact Or.inr ⟨hx, hy⟩
    | false => exact absurd ((h hy).1.symm.trans hx) Bool.false_ne_true

/-- Picks from two lists with the same members are related as any two picks from one list are. The
relation goes both ways, since either pick is a member of the other list. -/
theorem rel_of_mem_iff {pick? : List Float32 → Option Float32} {R : Float32 → Float32 → Prop}
    (hnone : ∀ {xs}, pick? xs = none ↔ xs = [])
    (hspec : ∀ {xs m}, pick? xs = some m → m ∈ xs ∧ ∀ x ∈ xs, R m x)
    (hsame : ∀ {x y}, R x y → R y x → Same x y) {xs ys : List Float32}
    (h : ∀ x, x ∈ xs ↔ x ∈ ys) : Option.Rel Same (pick? xs) (pick? ys) := by
  have hnil : xs = [] ↔ ys = [] := by
    rw [List.eq_nil_iff_forall_not_mem, List.eq_nil_iff_forall_not_mem]
    exact forall_congr' fun x => not_congr (h x)
  cases hxs : pick? xs with
  | none =>
    have hys : pick? ys = none := hnone.2 (hnil.1 (hnone.1 hxs))
    rw [hys]
    exact .none
  | some m =>
    cases hys : pick? ys with
    | none => cases (hnone.2 (hnil.2 (hnone.1 hys))).symm.trans hxs
    | some m' =>
      obtain ⟨hm, hall⟩ := hspec hxs
      obtain ⟨hm', hall'⟩ := hspec hys
      exact .some (hsame (hall m' ((h m').2 hm')) (hall' m ((h m).1 hm)))

/-- **The least number** depends only on which numbers there are. -/
theorem least?_of_mem_iff {xs ys : List Float32} (h : ∀ x, x ∈ xs ↔ x ∈ ys) :
    Option.Rel Same (least? xs) (least? ys) :=
  rel_of_mem_iff least?_eq_none_iff least?_spec same_of_atMost h

/-- **The greatest number** depends only on which numbers there are. -/
theorem greatest?_of_mem_iff {xs ys : List Float32} (h : ∀ x, x ∈ xs ↔ x ∈ ys) :
    Option.Rel Same (greatest? xs) (greatest? ys) :=
  rel_of_mem_iff greatest?_eq_none_iff greatest?_spec same_of_atLeast h

end Sidescroller.Binary32
