import Sidescroller.Proofs.Binary32.Pattern

/-!
# Values of binary32 numbers

The `value` of a number is its sign and its magnitude together, in units of `2 ^ (-149)`. Zeros of
either sign have value zero, and the infinities have values next to those of the finite numbers.
The value of a NaN means nothing, so the statements here ask for numbers that are none.

* `lt_iff`, `le_iff`, `beq_iff` — numbers compare as their values do, and NaN with nothing;
* `value_lt_iff_rank_lt` — `rank` counts the positions in that order.
-/

namespace Sidescroller.Binary32

open Float.Model (Format UnpackedFloat)
open Float.Model.UnpackedFloat (Sign)

/-! ### Sign, pattern and value -/

/-- The sign of a number. -/
def sign (x : Float32) : Sign := signOf x.toBits.toNat

/-- The bit pattern of a number without its sign. -/
def pattern (x : Float32) : Nat := x.toBits.toNat % 2 ^ 31

/-- The value of a number in units of `2 ^ (-149)`. -/
def value (x : Float32) : Int := (sign x).apply (units (pattern x))

theorem isNaN_eq_false_iff {x : Float32} : x.isNaN = false ↔ pattern x ≤ infinitePattern := by
  change (UnpackedFloat.unpack Format.binary32 x.toBits.toBitVec).isNaN = false ↔ _
  rcases Nat.lt_or_ge infinitePattern (pattern x) with h | h
  · rw [unpack_eq_notANumber _ h]
    exact iff_of_false (fun h' => Bool.false_ne_true h'.symm) (Nat.not_le.2 h)
  · rw [unpack_eq_decode _ h]
    change (decode (sign x) (pattern x)).isNaN = false ↔ _
    refine iff_of_true ?_ h
    rcases decode_cases (sign x) h with ⟨-, hf⟩ | ⟨-, hf⟩ | ⟨-, -, hp, hf⟩ <;> rw [hf] <;> rfl

theorem unpack_toModel {x : Float32} (h : x.isNaN = false) :
    x.toModel.unpack = decode (sign x) (pattern x) :=
  unpack_eq_decode _ (isNaN_eq_false_iff.1 h)

theorem unpack_toModel_of_isNaN {x : Float32} (h : x.isNaN = true) :
    x.toModel.unpack = .notANumber := by
  refine unpack_eq_notANumber _ ?_
  by_contra hle
  rw [isNaN_eq_false_iff.2 (Nat.not_lt.1 hle)] at h
  exact Bool.false_ne_true h

theorem isFinite_iff {x : Float32} : x.isFinite = true ↔ pattern x < infinitePattern := by
  change x.toModel.unpack.isFinite = true ↔ _
  cases hx : x.isNaN with
  | true =>
    have hpattern : ¬ pattern x ≤ infinitePattern := by
      rw [← isNaN_eq_false_iff, hx]
      exact Bool.false_ne_true.symm
    rw [unpack_toModel_of_isNaN hx]
    exact iff_of_false nofun fun h => hpattern h.le
  | false =>
    rw [unpack_toModel hx]
    rcases decode_cases (sign x) (isNaN_eq_false_iff.1 hx) with
      ⟨hn, hf⟩ | ⟨hn, hf⟩ | ⟨-, hn, hp, hf⟩
    · rw [hf, hn]
      exact iff_of_true rfl (by decide)
    · rw [hf, hn]
      exact iff_of_false nofun (Nat.lt_irrefl _)
    · rw [hf]
      exact iff_of_true rfl hn

theorem isNaN_of_isFinite {x : Float32} (h : x.isFinite = true) : x.isNaN = false :=
  isNaN_eq_false_iff.2 (isFinite_iff.1 h).le

/-! ### Order -/

/-- A strictly increasing scale for magnitudes, with signs on both sides. -/
theorem apply_lt_apply_iff {f : Nat → Nat} (hf : StrictMono f) (h₀ : f 0 = 0) (s t : Sign)
    (m n : Nat) : s.apply (f m) < t.apply (f n) ↔ s.apply m < t.apply n := by
  have hmn : f m < f n ↔ m < n := hf.lt_iff_lt
  have hnm : f n < f m ↔ n < m := hf.lt_iff_lt
  have hm : f 0 < f m ↔ 0 < m := hf.lt_iff_lt
  have hn : f 0 < f n ↔ 0 < n := hf.lt_iff_lt
  cases s <;> cases t <;> simp only [Sign.apply] <;> omega

theorem rank_eq (x : Float32) : (rank x : Int) = 2 ^ 31 + (sign x).apply (pattern x) := by
  have hlt := x.toBits.toNat_lt
  -- both sides split on the highest bit
  unfold rank sign pattern signOf
  dsimp only
  split_ifs <;> simp only [Sign.apply] <;> omega

/-- **The order of values is the order of positions.** -/
theorem value_lt_iff_rank_lt {x y : Float32} : value x < value y ↔ rank x < rank y := by
  have hx := rank_eq x
  have hy := rank_eq y
  rw [value, value, apply_lt_apply_iff units_strictMono units_zero]
  omega

theorem value_le_iff_rank_le {x y : Float32} : value x ≤ value y ↔ rank x ≤ rank y := by
  rw [← Int.not_lt, ← Nat.not_lt, value_lt_iff_rank_lt]

theorem value_eq_iff_rank_eq {x y : Float32} : value x = value y ↔ rank x = rank y := by
  rw [le_antisymm_iff, le_antisymm_iff, value_le_iff_rank_le, value_le_iff_rank_le]

theorem compare_unpack {x y : Float32} (hx : x.isNaN = false) (hy : y.isNaN = false) :
    x.toModel.unpack.compare y.toModel.unpack = some (compare (value x) (value y)) := by
  rw [unpack_toModel hx, unpack_toModel hy,
    compare_decode _ _ (isNaN_eq_false_iff.1 hx) (isNaN_eq_false_iff.1 hy)]
  have hlt :=
    apply_lt_apply_iff units_strictMono units_zero (sign x) (sign y) (pattern x) (pattern y)
  have hgt :=
    apply_lt_apply_iff units_strictMono units_zero (sign y) (sign x) (pattern y) (pattern x)
  unfold value
  -- the two scales agree on each of the three outcomes
  rcases Int.lt_trichotomy ((sign x).apply (pattern x)) ((sign y).apply (pattern y)) with h | h | h
  · rw [Int.compare_eq_lt.2 h, Int.compare_eq_lt.2 (hlt.2 h)]
  · rw [Int.compare_eq_eq.2 h, Int.compare_eq_eq.2 (by omega)]
  · rw [Int.compare_eq_gt.2 h, Int.compare_eq_gt.2 (hgt.2 h)]

/-- Nothing compares with a NaN. -/
theorem compare_unpack_of_isNaN {x y : Float32} (h : x.isNaN = true ∨ y.isNaN = true) :
    x.toModel.unpack.compare y.toModel.unpack = none := by
  rcases h with h | h <;> rw [unpack_toModel_of_isNaN h]
  · simp only [UnpackedFloat.compare]
  · cases x.toModel.unpack <;> simp only [UnpackedFloat.compare]

private theorem lt_iff_compare {x y : Float32} :
    x < y ↔ x.toModel.unpack.compare y.toModel.unpack = some .lt := by
  change decide ((x.toModel.unpack.compare y.toModel.unpack == some Ordering.lt) = true) = true ↔ _
  rw [decide_eq_true_iff, beq_iff_eq]

private theorem le_iff_compare {x y : Float32} :
    x ≤ y ↔ (x.toModel.unpack.compare y.toModel.unpack).any (·.isLE) = true := by
  change decide ((x.toModel.unpack.compare y.toModel.unpack).any (·.isLE) = true) = true ↔ _
  rw [decide_eq_true_iff]

private theorem beq_iff_compare {x y : Float32} :
    (x == y) = true ↔ x.toModel.unpack.compare y.toModel.unpack = some .eq := by
  change (x.toModel.unpack.compare y.toModel.unpack == some Ordering.eq) = true ↔ _
  rw [beq_iff_eq]

private theorem not_numbers {x y : Float32} (h : x.isNaN = true ∨ y.isNaN = true) (p : Prop) :
    ¬ (x.isNaN = false ∧ y.isNaN = false ∧ p) := by
  rintro ⟨hx, hy, -⟩
  rcases h with h | h
  · exact Bool.false_ne_true (hx.symm.trans h)
  · exact Bool.false_ne_true (hy.symm.trans h)

/-- **Less than**: two numbers, the first of which has the smaller value. -/
theorem lt_iff {x y : Float32} :
    x < y ↔ x.isNaN = false ∧ y.isNaN = false ∧ value x < value y := by
  rw [lt_iff_compare]
  by_cases h : x.isNaN = true ∨ y.isNaN = true
  · rw [compare_unpack_of_isNaN h]
    exact iff_of_false nofun (not_numbers h _)
  · simp only [not_or, Bool.not_eq_true] at h
    rw [compare_unpack h.1 h.2, Option.some.injEq, Int.compare_eq_lt]
    exact ⟨fun hlt => ⟨h.1, h.2, hlt⟩, fun hall => hall.2.2⟩

/-- **At most**: two numbers, the second of which does not have the smaller value. -/
theorem le_iff {x y : Float32} :
    x ≤ y ↔ x.isNaN = false ∧ y.isNaN = false ∧ value x ≤ value y := by
  rw [le_iff_compare]
  by_cases h : x.isNaN = true ∨ y.isNaN = true
  · rw [compare_unpack_of_isNaN h]
    exact iff_of_false nofun (not_numbers h _)
  · simp only [not_or, Bool.not_eq_true] at h
    rw [compare_unpack h.1 h.2, Option.any_some, Int.isLE_compare]
    exact ⟨fun hle => ⟨h.1, h.2, hle⟩, fun hall => hall.2.2⟩

theorem le_iff_not_lt {x y : Float32} (hx : x.isNaN = false) (hy : y.isNaN = false) :
    x ≤ y ↔ ¬ y < x := by
  rw [le_iff, lt_iff, and_iff_right hx, and_iff_right hy, and_iff_right hy, and_iff_right hx,
    Int.not_lt]

theorem isNaN_of_le {x y : Float32} (h : x ≤ y) : x.isNaN = false ∧ y.isNaN = false :=
  ⟨(le_iff.1 h).1, (le_iff.1 h).2.1⟩

protected theorem le_of_lt {x y : Float32} (h : x < y) : x ≤ y := by
  obtain ⟨hx, hy, hlt⟩ := lt_iff.1 h
  exact le_iff.2 ⟨hx, hy, hlt.le⟩

protected theorem le_refl {x : Float32} (h : x.isNaN = false) : x ≤ x := le_iff.2 ⟨h, h, le_rfl⟩

protected theorem le_trans {x y z : Float32} (h : x ≤ y) (h' : y ≤ z) : x ≤ z := by
  obtain ⟨hx, -, hxy⟩ := le_iff.1 h
  obtain ⟨-, hz, hyz⟩ := le_iff.1 h'
  exact le_iff.2 ⟨hx, hz, hxy.trans hyz⟩

protected theorem lt_trans {x y z : Float32} (h : x < y) (h' : y < z) : x < z := by
  obtain ⟨hx, -, hxy⟩ := lt_iff.1 h
  obtain ⟨-, hz, hyz⟩ := lt_iff.1 h'
  exact lt_iff.2 ⟨hx, hz, hxy.trans hyz⟩

protected theorem lt_asymm {x y : Float32} (h : x < y) : ¬ y < x := by
  intro h'
  obtain ⟨-, -, hxy⟩ := lt_iff.1 h
  obtain ⟨-, -, hyx⟩ := lt_iff.1 h'
  exact Int.lt_asymm hxy hyx

protected theorem lt_of_le_of_lt {x y z : Float32} (h : x ≤ y) (h' : y < z) : x < z := by
  obtain ⟨hx, -, hxy⟩ := le_iff.1 h
  obtain ⟨-, hz, hyz⟩ := lt_iff.1 h'
  exact lt_iff.2 ⟨hx, hz, hxy.trans_lt hyz⟩

protected theorem lt_of_lt_of_le {x y z : Float32} (h : x < y) (h' : y ≤ z) : x < z := by
  obtain ⟨hx, -, hxy⟩ := lt_iff.1 h
  obtain ⟨-, hz, hyz⟩ := le_iff.1 h'
  exact lt_iff.2 ⟨hx, hz, hxy.trans_le hyz⟩

/-- **Equal as numbers**: two numbers of one value. -/
theorem beq_iff {x y : Float32} :
    (x == y) = true ↔ x.isNaN = false ∧ y.isNaN = false ∧ value x = value y := by
  rw [beq_iff_compare]
  by_cases h : x.isNaN = true ∨ y.isNaN = true
  · rw [compare_unpack_of_isNaN h]
    exact iff_of_false nofun (not_numbers h _)
  · simp only [not_or, Bool.not_eq_true] at h
    rw [compare_unpack h.1 h.2, Option.some.injEq, Int.compare_eq_eq]
    exact ⟨fun heq => ⟨h.1, h.2, heq⟩, fun hall => hall.2.2⟩

theorem beq_eq_false_of_lt {x y : Float32} (h : x < y) : (x == y) = false ∧ (y == x) = false := by
  obtain ⟨-, -, hlt⟩ := lt_iff.1 h
  rw [Bool.eq_false_iff, Bool.eq_false_iff, ne_eq, ne_eq, beq_iff, beq_iff]
  constructor
  · rintro ⟨-, -, heq⟩
    exact hlt.ne heq
  · rintro ⟨-, -, heq⟩
    exact hlt.ne' heq

/-! ### Numbers from words, and zero -/

/-- The bits of a number that is read from a word without a NaN. -/
theorem toBits_ofBits {word : UInt32} (h : word.toNat % 2 ^ 31 ≤ infinitePattern) :
    (Float32.ofBits word).toBits = word := by
  apply UInt32.toNat_inj.1
  -- reading a word and writing it again
  change (UnpackedFloat.pack Format.binary32
    (UnpackedFloat.unpack Format.binary32 word.toBitVec)).toNat = _
  rw [unpack_eq_decode _ h]
  refine (toNat_pack_decode _ h).trans ?_
  have hlt := word.toNat_lt
  change (signOf word.toNat).toBitVec.toNat * 2 ^ 31 + word.toNat % 2 ^ 31 = word.toNat
  rcases Nat.lt_or_ge word.toNat (2 ^ 31) with hw | hw
  · rw [signOf, if_pos hw, Sign.toBitVec, BitVec.toNat_ofNat]
    omega
  · rw [signOf, if_neg (Nat.not_lt.2 hw), Sign.toBitVec, BitVec.toNat_ofNat]
    omega

theorem isNaN_ofBits {word : UInt32} (h : word.toNat % 2 ^ 31 ≤ infinitePattern) :
    (Float32.ofBits word).isNaN = false := by
  rw [isNaN_eq_false_iff, pattern, toBits_ofBits h]
  exact h

@[simp] theorem isNaN_zero : (0 : Float32).isNaN = false := by decide

@[simp] theorem value_zero : value 0 = 0 := by decide

theorem rank_zero : rank 0 = 2 ^ 31 := by decide

theorem rank_of_lt {x : Float32} (h : x.toBits.toNat < 2 ^ 31) :
    rank x = 2 ^ 31 + x.toBits.toNat := if_pos h

theorem rank_of_le {x : Float32} (h : 2 ^ 31 ≤ x.toBits.toNat) :
    rank x = 2 ^ 32 - x.toBits.toNat := if_neg (Nat.not_lt.2 h)

/-- No number is below negative infinity. -/
theorem le_rank {x : Float32} (h : x.isNaN = false) : 2 ^ 31 - infinitePattern ≤ rank x := by
  have hx := rank_eq x
  have hp := isNaN_eq_false_iff.1 h
  cases hs : sign x <;> rw [hs] at hx <;> simp only [Sign.apply] at hx <;> omega

end Sidescroller.Binary32
