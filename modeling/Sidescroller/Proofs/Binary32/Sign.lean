import Sidescroller.Proofs.Binary32.Clamp
import Sidescroller.Proofs.Binary32.Same

/-!
# Numbers that are not below zero

The sum and the product of two numbers that are not below zero are not below zero either. This is
said with `¬ x < 0`, so that it holds for all numbers: a zero may have a sign, an infinity times a
zero is a NaN, and a NaN is not below anything.

A product is rounded by the library, and how it rounds does not matter here: whatever becomes of the
magnitude, the sign of the result is the product of the signs.

* `Unsigned` — what a number that is not below zero looks like when it is unpacked;
  `not_lt_zero_iff`, `not_lt_zero_of_pack` — reading and writing it;
* `not_add_lt_zero`, `not_mul_lt_zero`, `not_lesser_lt_zero` — what keeps a number from going below;
  `not_lt_sub` — and to take such a number away makes nothing greater.
-/

namespace Sidescroller.Binary32

open Float.Model (Format UnpackedFloat)
open Float.Model.UnpackedFloat (Sign Accuracy packComponents packedInfinity)

variable {x y z : Float32} {f g : UnpackedFloat}

/-! ### Signs of unpacked numbers -/

/-- **Not below zero**: a NaN, a zero of either sign, or a number with a positive sign. -/
def Unsigned : UnpackedFloat → Prop
  | .notANumber => True
  | .zero _ => True
  | .infinity s => s = .positive
  | .finite s _ _ _ => s = .positive

theorem unsigned_decode_iff (s : Sign) {n : Nat} (h : n ≤ infinitePattern) :
    Unsigned (decode s n) ↔ 0 ≤ s.apply (units n) := by
  have hzero := units_zero
  have hinf := infiniteUnits_pos
  unfold infiniteUnits at hinf
  rcases decode_cases s h with ⟨rfl, hf⟩ | ⟨rfl, hf⟩ | ⟨hn, -, hp, hf⟩
  · rw [hf]
    cases s <;> simp [Unsigned, Sign.apply]
  · rw [hf]
    cases s <;> simp [Unsigned, Sign.apply, hinf.ne']
  · have hpos := units_strictMono hn
    rw [hf]
    cases s
    · refine iff_of_false (by simp [Unsigned]) ?_
      simp only [Sign.apply]
      omega
    · exact iff_of_true rfl (Int.natCast_nonneg _)

/-- **Reading** the sign of a number. -/
theorem not_lt_zero_iff : ¬ x < 0 ↔ Unsigned x.toModel.unpack := by
  rw [lt_iff, value_zero]
  cases hx : x.isNaN with
  | true =>
    rw [unpack_toModel_of_isNaN hx]
    exact iff_of_true (fun h => Bool.false_ne_true h.1.symm) trivial
  | false =>
    rw [unpack_toModel hx, unsigned_decode_iff _ (isNaN_eq_false_iff.1 hx), ← Int.not_lt]
    exact not_congr ⟨fun h => h.2.2, fun h => ⟨rfl, isNaN_zero, h⟩⟩

theorem not_lt_zero_of_toBits_lt (h : z.toBits.toNat < 2 ^ 31) : ¬ z < 0 := by
  intro hlt
  obtain ⟨-, -, hvalue⟩ := lt_iff.1 hlt
  have hrank := value_lt_iff_rank_lt.1 hvalue
  rw [rank_of_lt h, rank_zero] at hrank
  omega

theorem toNat_packComponents_lt (e : BitVec 8) (m : BitVec 23) :
    (packComponents Format.binary32 .positive e m).toNat < 2 ^ 31 := by
  have he := e.isLt
  have hm := m.isLt
  rw [toNat_packComponents, show Sign.positive.toBitVec.toNat = 0 from rfl]
  omega

/-- **Writing** a number keeps its sign. -/
theorem not_lt_zero_of_pack (hf : Unsigned f)
    (h : z.toBits.toBitVec = UnpackedFloat.pack Format.binary32 f) : ¬ z < 0 := by
  have hword := congrArg BitVec.toNat h
  cases f with
  | notANumber =>
    intro hlt
    cases (isNaN_of_pack_notANumber h).symm.trans (lt_iff.1 hlt).1
  | zero s =>
    obtain ⟨-, hvalue⟩ := value_of_pack_decode (s := s) (Nat.zero_le _) h
    intro hlt
    obtain ⟨-, -, hneg⟩ := lt_iff.1 hlt
    rw [hvalue, value_zero] at hneg
    cases s <;> exact Int.lt_irrefl _ hneg
  | infinity s =>
    obtain rfl : s = .positive := hf
    exact not_lt_zero_of_toBits_lt (hword.trans_lt (toNat_packComponents_lt _ _))
  | finite s m e hp =>
    obtain rfl : s = .positive := hf
    refine not_lt_zero_of_toBits_lt (hword.trans_lt ?_)
    unfold UnpackedFloat.pack
    dsimp only
    -- in each of the three forms the sign has its bit to itself
    split_ifs
    · exact toNat_packComponents_lt _ _
    · exact toNat_packComponents_lt _ _
    · exact toNat_packComponents_lt _ _

theorem unsigned_roundWithAccuracy (m : Nat) (e : Int) (accuracy : Accuracy) :
    Unsigned (UnpackedFloat.roundWithAccuracy Format.binary32 .positive m e accuracy) := by
  unfold UnpackedFloat.roundWithAccuracy
  dsimp only
  split_ifs
  · trivial
  · rfl

theorem Unsigned.mul (hf : Unsigned f) (hg : Unsigned g) :
    Unsigned (UnpackedFloat.mul Format.binary32 f g) := by
  -- only zeros may be negative, and a product with a zero is a zero or no number
  cases f with
  | notANumber => cases g <;> trivial
  | zero s => cases g <;> trivial
  | infinity s =>
    obtain rfl : s = .positive := hf
    cases g with
    | notANumber => trivial
    | zero t => trivial
    | infinity t =>
      obtain rfl : t = .positive := hg
      rfl
    | finite t m e hp =>
      obtain rfl : t = .positive := hg
      rfl
  | finite s m e hp =>
    obtain rfl : s = .positive := hf
    cases g with
    | notANumber => trivial
    | zero t => trivial
    | infinity t =>
      obtain rfl : t = .positive := hg
      rfl
    | finite t n e' hq =>
      obtain rfl : t = .positive := hg
      exact unsigned_roundWithAccuracy (m * n) (e + e') .exact

/-! ### Sums and products -/

/-- **A product** of numbers that are not below zero is not below zero. -/
theorem not_mul_lt_zero (hx : ¬ x < 0) (hy : ¬ y < 0) : ¬ x * y < 0 :=
  not_lt_zero_of_pack ((not_lt_zero_iff.1 hx).mul (not_lt_zero_iff.1 hy)) rfl

/-- **A sum** of numbers that are not below zero is not below zero. -/
theorem not_add_lt_zero (hx : ¬ x < 0) (hy : ¬ y < 0) : ¬ x + y < 0 := by
  intro hlt
  obtain ⟨hsum, -, -⟩ := lt_iff.1 hlt
  obtain ⟨-, hnan⟩ := isNaN_of_add hsum
  -- with zero in the place of `x` the sum would be `y`, and not greater than it is
  have hzero : Same (0 + y) y := .zero_add (by decide) y
  have hle : 0 + y ≤ x + y :=
    (le_iff_not_lt ((same_iff.1 hzero).1.trans hnan) hsum).2 (not_add_lt_add hx y)
  exact hy ((hzero.lt_iff_left 0).1 (Binary32.lt_of_le_of_lt hle hlt))

/-- **What is taken away** from a number does not make it greater. -/
theorem not_lt_sub (hy : 0 ≤ y) (x : Float32) : ¬ x < x - y := by
  have hneg : ¬ 0 < -y := by
    obtain ⟨-, hnan, hval⟩ := le_iff.1 hy
    obtain ⟨-, hvalue⟩ := value_neg hnan
    intro hlt
    obtain ⟨-, -, hpos⟩ := lt_iff.1 hlt
    rw [value_zero] at hval hpos
    omega
  intro hlt
  rw [Binary32.sub_eq_add_neg, Binary32.add_comm] at hlt
  have hzero : Same (0 + x) x := .zero_add (by decide) x
  exact not_add_lt_add hneg x ((hzero.lt_iff_left _).2 hlt)

theorem lesser_le (a : Float32) {b : Float32} (hb : b.isNaN = false) : lesser a b ≤ b := by
  obtain ⟨hnan, hle⟩ := (lesser_atMost a b).2 hb
  exact le_iff.2 ⟨hnan, hb, hle⟩

theorem not_lesser_lt_zero (hx : ¬ x < 0) (hy : ¬ y < 0) : ¬ lesser x y < 0 := by
  rcases lesser_eq_or x y with h | h
  · rw [h]
    exact hx
  · rw [h]
    exact hy

end Sidescroller.Binary32
