import Sidescroller.Proofs.Binary32.Order

/-!
# Sums, differences and clamps grow

Moving a number up never moves what is computed from it down, as long as the other operand stays:
not its sum with another number, not its difference to one, and not what `clamp` makes of it. With
rounding a result may stay where it is, and with infinite operands it may be no number at all, so
all of this is said with `¬ y < x`, which a NaN on either side makes true.

* `sub_eq_add_neg` — a difference is the sum with the negated number; `value_neg` — its value;
* `not_add_lt_add`, `not_sub_lt_sub`, `not_clamp_lt_clamp` — the three statements;
* `isNaN_clamp_iff`, `clamp_mem`, `clamp_of_mem` — where a clamp ends up.
-/

namespace Sidescroller.Binary32

open Float.Model (Format UnpackedFloat)
open Float.Model.UnpackedFloat (Sign)

variable {x y w lo hi : Float32}

/-! ### Differences -/

theorem neg_decode (s : Sign) (n : Nat) : (decode s n).neg = decode (-s) n := by
  unfold decode
  split_ifs
  · rfl
  · rfl
  · rfl

/-- A number that is written and read again. -/
theorem unpack_pack_decode (s : Sign) {n : Nat} (h : n ≤ infinitePattern) :
    UnpackedFloat.unpack Format.binary32 (UnpackedFloat.pack Format.binary32 (decode s n)) =
      decode s n := by
  have hword := toNat_pack_decode s h
  have hsmall : n < 2 ^ 31 := by
    unfold infinitePattern at h
    omega
  have hpattern : (s.toBitVec.toNat * 2 ^ 31 + n) % 2 ^ 31 = n := by omega
  have hsign : signOf (s.toBitVec.toNat * 2 ^ 31 + n) = s := by
    unfold signOf
    cases s
    · exact if_neg (Nat.not_lt.2 (Nat.le_add_right _ _))
    · exact if_pos (by rw [Sign.toBitVec, BitVec.toNat_ofNat]; omega)
  rw [unpack_eq_decode _ (by rw [hword, hpattern]; exact h), hword, hpattern, hsign]

theorem unpack_neg (y : Float32) : (-y).toModel.unpack = y.toModel.unpack.neg := by
  show UnpackedFloat.unpack Format.binary32
    (UnpackedFloat.pack Format.binary32 y.toModel.unpack.neg) = _
  cases hy : y.isNaN with
  | true =>
    rw [unpack_toModel_of_isNaN hy]
    exact unpack_eq_notANumber _ (by decide)
  | false =>
    rw [unpack_toModel hy, neg_decode, unpack_pack_decode _ (isNaN_eq_false_iff.1 hy)]

theorem apply_neg (s : Sign) (n : Int) : (-s).apply n = -s.apply n := by
  cases s
  · exact (Int.neg_neg n).symm
  · rfl

private theorem unpackedSub_eq (f g : UnpackedFloat) :
    UnpackedFloat.sub Format.binary32 f g = UnpackedFloat.add Format.binary32 f g.neg := by
  cases f <;> cases g <;> simp only [UnpackedFloat.sub, UnpackedFloat.add, UnpackedFloat.neg]
  -- two finite numbers, whose factors have been brought to one power of two
  rw [apply_neg, Int.sub_eq_add_neg]

/-- **A difference** is the sum with the negated number. -/
protected theorem sub_eq_add_neg (x y : Float32) : x - y = x + -y := by
  apply congrArg Float32.ofModel
  apply congrArg Float32.Model.pack
  exact (unpackedSub_eq _ _).trans (congrArg _ (unpack_neg y).symm)

/-- **A negated number** has the negated value. -/
theorem value_neg (h : x.isNaN = false) : (-x).isNaN = false ∧ value (-x) = -value x := by
  have hpack : (-x).toBits.toBitVec = UnpackedFloat.pack Format.binary32
      (decode (-sign x) (pattern x)) := by
    rw [← neg_decode, ← unpack_toModel h]
    rfl
  obtain ⟨hnan, hval⟩ := value_of_pack_decode (isNaN_eq_false_iff.1 h) hpack
  exact ⟨hnan, hval.trans (apply_neg _ _)⟩

/-! ### Sums and differences grow -/

protected theorem lt_irrefl (x : Float32) : ¬ x < x := by
  intro h
  exact Int.lt_irrefl _ (lt_iff.1 h).2.2

/-- **A sum grows** with its first operand. -/
theorem not_add_lt_add (h : ¬ y < x) (w : Float32) : ¬ y + w < x + w := by
  intro hlt
  obtain ⟨hysum, hxsum, -⟩ := lt_iff.1 hlt
  have hx : x.isNaN = false := (isNaN_of_add hxsum).1
  have hy : y.isNaN = false := (isNaN_of_add hysum).1
  have hle : value x ≤ value y := by
    by_contra hgt
    exact h (lt_iff.2 ⟨hy, hx, Int.not_le.1 hgt⟩)
  -- the sum at `y` is passed at `x`, so it would be passed at `y` as well
  exact Binary32.lt_irrefl _ (lt_add_of_value_le hlt hy hle)

/-- **A difference grows** with its first operand. -/
theorem not_sub_lt_sub (h : ¬ y < x) (w : Float32) : ¬ y - w < x - w := by
  rw [Binary32.sub_eq_add_neg, Binary32.sub_eq_add_neg]
  exact not_add_lt_add h (-w)

/-! ### Clamps -/

/-- A NaN is left alone. -/
theorem clamp_of_isNaN (h : x.isNaN = true) (lo hi : Float32) : clamp lo hi x = x := by
  have hlo : ¬ x < lo := by
    intro hlt
    exact Bool.false_ne_true ((lt_iff.1 hlt).1.symm.trans h)
  have hhi : ¬ hi < x := by
    intro hlt
    exact Bool.false_ne_true ((lt_iff.1 hlt).2.1.symm.trans h)
  unfold clamp
  dsimp only
  rw [if_neg hlo, if_neg hhi]

/-- A number of the interval is left alone, even if it is a zero of the other sign than a bound. -/
theorem clamp_of_mem (hlo : lo ≤ x) (hhi : x ≤ hi) : clamp lo hi x = x := by
  obtain ⟨hlonan, hx, -⟩ := le_iff.1 hlo
  obtain ⟨-, hhinan, -⟩ := le_iff.1 hhi
  unfold clamp
  dsimp only
  rw [if_neg ((le_iff_not_lt hlonan hx).1 hlo), if_neg ((le_iff_not_lt hx hhinan).1 hhi)]

/-- **The value of a clamp.** -/
theorem value_clamp (h : lo ≤ hi) (hx : x.isNaN = false) :
    (clamp lo hi x).isNaN = false ∧
      value (clamp lo hi x) = max (value lo) (min (value hi) (value x)) := by
  obtain ⟨hlo, hhi, hle⟩ := le_iff.1 h
  have hlow : x < lo ↔ value x < value lo := by
    rw [lt_iff, and_iff_right hx, and_iff_right hlo]
  have hhigh : ∀ raised : Float32, raised.isNaN = false →
      (hi < raised ↔ value hi < value raised) := by
    intro raised hraised
    rw [lt_iff, and_iff_right hhi, and_iff_right hraised]
  unfold clamp
  dsimp only
  -- below the interval, above it, or in it; what was raised to `lo` is not above
  split_ifs with hbelow habove habove
  · rw [hhigh lo hlo] at habove
    omega
  · rw [hlow] at hbelow
    exact ⟨hlo, by omega⟩
  · rw [hlow] at hbelow
    rw [hhigh x hx] at habove
    exact ⟨hhi, by omega⟩
  · rw [hlow] at hbelow
    rw [hhigh x hx] at habove
    exact ⟨hx, by omega⟩

theorem isNaN_clamp_iff (h : lo ≤ hi) : (clamp lo hi x).isNaN = true ↔ x.isNaN = true := by
  cases hx : x.isNaN with
  | true => rw [clamp_of_isNaN hx, hx]
  | false => rw [(value_clamp h hx).1]

/-- **A clamp stays in its interval.** -/
theorem clamp_mem (h : lo ≤ hi) (hx : x.isNaN = false) :
    lo ≤ clamp lo hi x ∧ clamp lo hi x ≤ hi := by
  obtain ⟨hlo, hhi, hle⟩ := le_iff.1 h
  obtain ⟨hclamp, hvalue⟩ := value_clamp h hx
  exact ⟨le_iff.2 ⟨hlo, hclamp, by omega⟩, le_iff.2 ⟨hclamp, hhi, by omega⟩⟩

/-- **A clamp grows** with the number that is clamped. -/
theorem not_clamp_lt_clamp (h : lo ≤ hi) (hxy : ¬ y < x) : ¬ clamp lo hi y < clamp lo hi x := by
  intro hlt
  obtain ⟨hyclamp, hxclamp, hval⟩ := lt_iff.1 hlt
  have hx : x.isNaN = false := by
    rw [← Bool.not_eq_true, ← isNaN_clamp_iff h, hxclamp]
    exact Bool.false_ne_true
  have hy : y.isNaN = false := by
    rw [← Bool.not_eq_true, ← isNaN_clamp_iff h, hyclamp]
    exact Bool.false_ne_true
  have hle : ¬ value y < value x := fun hlt => hxy (lt_iff.2 ⟨hy, hx, hlt⟩)
  rw [(value_clamp h hx).2, (value_clamp h hy).2] at hval
  omega

end Sidescroller.Binary32
