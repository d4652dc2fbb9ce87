import Sidescroller.Proofs.Binary32.Addition

/-!
# The neighbour below, least and greatest numbers

What the functions of `Sidescroller.Binary32.Order` do in terms of values.

* `rank_nextBelow` — `nextBelow` goes down by one position;
* `least?_spec`, `greatest?_spec` — the number that is picked is one of the list, and it bounds all
  of them that are no NaN.
-/

namespace Sidescroller.Binary32

/-! ### The neighbour below -/

/-- **The neighbour below.** If a number is not the lowest one, `nextBelow` is the number one
position down. -/
theorem rank_nextBelow {x y : Float32} (h : y < x) :
    (nextBelow x).isNaN = false ∧ rank (nextBelow x) + 1 = rank x := by
  obtain ⟨hy, hx, hval⟩ := lt_iff.1 h
  have hlow := le_rank hy
  have hrank := value_lt_iff_rank_lt.1 hval
  have hpat := isNaN_eq_false_iff.1 hx
  have hlt := x.toBits.toNat_lt
  unfold pattern at hpat
  unfold infinitePattern at hlow hpat
  -- the two tests of `nextBelow`, as positions: both zeros stand at `2 ^ 31`
  have hzero : (x == 0) = true ↔ rank x = 2 ^ 31 := by
    rw [beq_iff, value_eq_iff_rank_eq, rank_zero]
    exact ⟨fun hall => hall.2.2, fun heq => ⟨hx, isNaN_zero, heq⟩⟩
  have hpos : 0 < x ↔ 2 ^ 31 < rank x := by
    rw [lt_iff, value_lt_iff_rank_lt, rank_zero]
    exact ⟨fun hall => hall.2.2, fun hlt => ⟨isNaN_zero, hx, hlt⟩⟩
  unfold nextBelow
  split_ifs with h₀ h₁
  · -- below both zeros is the smallest negative number
    rw [hzero.1 h₀]
    exact ⟨by decide, by decide⟩
  · -- a positive number: its bits go down
    have hb : x.toBits.toNat < 2 ^ 31 := by
      by_contra hb
      have := rank_of_le (Nat.not_lt.1 hb)
      have := hpos.1 h₁
      omega
    have hr := rank_of_lt hb
    have hgt := hpos.1 h₁
    -- a positive number has bits to give away, so nothing wraps around
    have hw : (x.toBits - 1).toNat = x.toBits.toNat - 1 :=
      UInt32.toNat_sub_of_le _ _ (by rw [UInt32.le_iff_toNat_le]; change 1 ≤ _; omega)
    have hbits : (Float32.ofBits (x.toBits - 1)).toBits = x.toBits - 1 :=
      toBits_ofBits (by unfold infinitePattern; omega)
    refine ⟨isNaN_ofBits (by unfold infinitePattern; omega), ?_⟩
    rw [rank_of_lt (by rw [hbits]; omega), hbits]
    omega
  · -- a negative number: its bits go up
    have hb : 2 ^ 31 ≤ x.toBits.toNat := by
      by_contra hb
      have := rank_of_lt (Nat.not_le.1 hb)
      have := mt hzero.2 h₀
      have := mt hpos.2 h₁
      omega
    have hr := rank_of_le hb
    -- and a number above the lowest one has room for one more
    have hw : (x.toBits + 1).toNat = x.toBits.toNat + 1 := by
      rw [UInt32.toNat_add, UInt32.toNat_one, Nat.mod_eq_of_lt (by omega)]
    have hbits : (Float32.ofBits (x.toBits + 1)).toBits = x.toBits + 1 :=
      toBits_ofBits (by unfold infinitePattern; omega)
    refine ⟨isNaN_ofBits (by unfold infinitePattern; omega), ?_⟩
    rw [rank_of_le (by rw [hbits]; omega), hbits]
    omega

/-- The lowest number. -/
def negativeInfinity : Float32 := Float32.ofBits 0xFF800000

theorem isNaN_negativeInfinity : negativeInfinity.isNaN = false := by decide

theorem value_negativeInfinity : value negativeInfinity = -infiniteUnits := by
  have hs : sign negativeInfinity = .negative := by rw [sign, signOf, if_neg (by decide)]
  have hp : pattern negativeInfinity = infinitePattern := by decide
  rw [value, hs, hp, infiniteUnits, Float.Model.UnpackedFloat.Sign.apply]

/-- Where a far side passes an edge, there is a position below. -/
theorem negativeInfinity_lt {edge x w : Float32} (h : edge < x + w) : negativeInfinity < x := by
  obtain ⟨he, hsum, hlt⟩ := lt_iff.1 h
  obtain ⟨hx, -⟩ := isNaN_of_add hsum
  refine lt_iff.2 ⟨isNaN_negativeInfinity, hx, ?_⟩
  rw [value_negativeInfinity]
  by_contra hle
  -- the far side of negative infinity is negative infinity
  have hedge := natAbs_value_le he
  have hxinf := (pattern_cases hx).resolve_right fun hfin => by
    have := natAbs_value_lt hfin
    omega
  obtain ⟨-, hval⟩ := value_add_eq_left hxinf hsum
  omega

/-! ### Picking one number of a list -/

/-- `m` is at most `x`, if `x` is a number at all. -/
def AtMost (m x : Float32) : Prop := x.isNaN = false → m.isNaN = false ∧ value m ≤ value x

/-- `m` is at least `x`, if `x` is a number at all. -/
def AtLeast (m x : Float32) : Prop := x.isNaN = false → m.isNaN = false ∧ value x ≤ value m

theorem AtMost.refl (x : Float32) : AtMost x x := fun h => ⟨h, le_rfl⟩

theorem AtLeast.refl (x : Float32) : AtLeast x x := fun h => ⟨h, le_rfl⟩

theorem AtMost.trans {x y z : Float32} (hxy : AtMost x y) (hyz : AtMost y z) : AtMost x z := by
  intro hz
  obtain ⟨hy, hle⟩ := hyz hz
  obtain ⟨hx, hle'⟩ := hxy hy
  exact ⟨hx, hle'.trans hle⟩

theorem AtLeast.trans {x y z : Float32} (hxy : AtLeast x y) (hyz : AtLeast y z) : AtLeast x z := by
  intro hz
  obtain ⟨hy, hle⟩ := hyz hz
  obtain ⟨hx, hle'⟩ := hxy hy
  exact ⟨hx, hle.trans hle'⟩

theorem lesser_eq_or (a b : Float32) : lesser a b = a ∨ lesser a b = b := by
  unfold lesser
  exact ite_eq_or_eq _ _ _

theorem greater_eq_or (a b : Float32) : greater a b = a ∨ greater a b = b := by
  unfold greater
  exact ite_eq_or_eq _ _ _

/-- The smaller of two numbers is at most either of them; that a NaN gives way is what makes this
hold for both operands. -/
theorem lesser_atMost (a b : Float32) : AtMost (lesser a b) a ∧ AtMost (lesser a b) b := by
  unfold lesser
  split_ifs with h
  · refine ⟨AtMost.refl a, fun hb => ?_⟩
    -- `a` was taken although `b` is a number, so it is below
    rw [hb, Bool.or_false, decide_eq_true_iff] at h
    obtain ⟨ha, -, hlt⟩ := lt_iff.1 h
    exact ⟨ha, hlt.le⟩
  · rw [Bool.or_eq_true, decide_eq_true_iff, not_or, Bool.not_eq_true] at h
    -- `b` was taken, so it is a number, and `a` is not below
    refine ⟨fun ha => ⟨h.2, ?_⟩, AtMost.refl b⟩
    by_contra hlt
    exact h.1 (lt_iff.2 ⟨ha, h.2, not_le.1 hlt⟩)

theorem greater_atLeast (a b : Float32) : AtLeast (greater a b) a ∧ AtLeast (greater a b) b := by
  unfold greater
  split_ifs with h
  · refine ⟨AtLeast.refl a, fun hb => ?_⟩
    rw [hb, Bool.or_false, decide_eq_true_iff] at h
    obtain ⟨-, ha, hlt⟩ := lt_iff.1 h
    exact ⟨ha, hlt.le⟩
  · rw [Bool.or_eq_true, decide_eq_true_iff, not_or, Bool.not_eq_true] at h
    refine ⟨fun ha => ⟨h.2, ?_⟩, AtLeast.refl b⟩
    by_contra hlt
    exact h.1 (lt_iff.2 ⟨h.2, ha, not_le.1 hlt⟩)

/-- Picking one of two, over and over, picks one of the list, and one that is related to all of it
if each pick is related to both of the two. -/
theorem foldl_pick {α : Type} {pick : α → α → α} {R : α → α → Prop} (hrefl : ∀ a, R a a)
    (htrans : ∀ {a b c}, R a b → R b c → R a c) (hmem : ∀ a b, pick a b = a ∨ pick a b = b)
    (hpick : ∀ a b, R (pick a b) a ∧ R (pick a b) b) (x : α) (xs : List α) :
    xs.foldl pick x ∈ x :: xs ∧ ∀ y ∈ x :: xs, R (xs.foldl pick x) y := by
  induction xs generalizing x with
  | nil => exact ⟨List.mem_cons_self, by simpa using hrefl x⟩
  | cons z zs ih =>
    -- the fold goes on with one of the first two
    obtain ⟨hin, hall⟩ := ih (pick x z)
    obtain ⟨hx, hz⟩ := hpick x z
    have hfirst := hall _ List.mem_cons_self
    refine ⟨?_, ?_⟩
    · rcases List.mem_cons.1 hin with heq | hin
      · rw [List.foldl_cons, heq]
        rcases hmem x z with h | h <;> rw [h] <;> simp
      · exact List.mem_cons_of_mem _ (List.mem_cons_of_mem _ hin)
    · simp only [List.mem_cons, forall_eq_or_imp]
      exact ⟨htrans hfirst hx, htrans hfirst hz, fun y hy => hall y (List.mem_cons_of_mem _ hy)⟩

theorem least?_eq_none_iff {xs : List Float32} : least? xs = none ↔ xs = [] := by
  cases xs <;> simp [least?]

theorem greatest?_eq_none_iff {xs : List Float32} : greatest? xs = none ↔ xs = [] := by
  cases xs <;> simp [greatest?]

/-- **The least number** is one of the list and at most each number of it. -/
theorem least?_spec {xs : List Float32} {m : Float32} (h : least? xs = some m) :
    m ∈ xs ∧ ∀ x ∈ xs, AtMost m x := by
  cases xs with
  | nil => cases h
  | cons x xs =>
    obtain rfl := Option.some.inj h
    exact foldl_pick AtMost.refl AtMost.trans lesser_eq_or lesser_atMost x xs

/-- **The greatest number** is one of the list and at least each number of it. -/
theorem greatest?_spec {xs : List Float32} {m : Float32} (h : greatest? xs = some m) :
    m ∈ xs ∧ ∀ x ∈ xs, AtLeast m x := by
  cases xs with
  | nil => cases h
  | cons x xs =>
    obtain rfl := Option.some.inj h
    exact foldl_pick AtLeast.refl AtLeast.trans greater_eq_or greater_atLeast x xs

end Sidescroller.Binary32
