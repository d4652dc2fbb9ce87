import Mathlib
import Sidescroller.Binary32.Order

/-!
# Bit patterns

Without its sign, a binary32 number is a whole number below `2 ^ 31`, its *pattern*. The pattern of
the infinities is `infinitePattern`, and the patterns above it are those of NaN. A pattern up to
there splits into a power of two and a factor, `scale` and `significand`, and stands for the
magnitude `units`, counted in units of `2 ^ (-149)`, the smallest positive number. In this unit all
magnitudes are whole numbers, and the infinities continue them with the next one.

* `units_strictMono` — patterns are in the order of their magnitudes;
* `unpack_eq_decode`, `unpack_eq_notANumber` — the number that a word of 32 bits holds, read off its
  sign and its pattern;
* `toNat_pack_decode` — the word that holds such a number;
* `compare_decode` — such numbers compare as their patterns with a sign do.
-/

namespace Sidescroller.Binary32

open Float.Model (Format UnpackedFloat)
open Float.Model.UnpackedFloat
  (Sign packComponents packedInfinity unpackSign unpackExponent unpackMantissa)

/-! ### Magnitudes -/

/-- The pattern of the infinities: the exponent field is all ones, the mantissa field is zero. -/
def infinitePattern : Nat := 255 * 2 ^ 23

/-- The power of two in the magnitude of a pattern. Exponent fields zero and one have the same: the
numbers of field zero have no hidden bit instead. -/
def scale (n : Nat) : Nat := n / 2 ^ 23 - 1

/-- The factor in the magnitude of a pattern, with the hidden bit. -/
def significand (n : Nat) : Nat := n - scale n * 2 ^ 23

/-- The magnitude that a pattern stands for, in units of the smallest positive number. -/
def units (n : Nat) : Nat := significand n * 2 ^ scale n

theorem scale_mul_add_significand (n : Nat) : scale n * 2 ^ 23 + significand n = n := by
  unfold significand scale
  omega

theorem significand_lt (n : Nat) : significand n < 2 ^ 24 := by
  unfold significand scale
  omega

theorem significand_pos {n : Nat} (h : n ≠ 0) : 0 < significand n := by
  unfold significand scale
  omega

/-- Only the numbers of the lowest scale have no hidden bit. -/
theorem le_significand_or (n : Nat) : 2 ^ 23 ≤ significand n ∨ scale n = 0 := by
  unfold significand scale
  omega

theorem scale_add {k m : Nat} (hm : m < 2 ^ 24) (h : 2 ^ 23 ≤ m ∨ k = 0) :
    scale (k * 2 ^ 23 + m) = k := by
  unfold scale
  omega

/-- The magnitude of a pattern that is put together from a factor and a power. -/
theorem units_add {k m : Nat} (hm : m < 2 ^ 24) (h : 2 ^ 23 ≤ m ∨ k = 0) :
    units (k * 2 ^ 23 + m) = m * 2 ^ k := by
  rw [units, significand, scale_add hm h, Nat.add_sub_cancel_left]

@[simp] theorem units_zero : units 0 = 0 := rfl

/-- **Patterns are in the order of the magnitudes they stand for.** -/
theorem units_strictMono : StrictMono units := by
  -- it is enough to go from one pattern to the next
  refine strictMono_nat_of_lt_succ fun n => ?_
  have hn := scale_mul_add_significand n
  rcases Nat.lt_or_ge (significand n + 1) (2 ^ 24) with hm | hm
  · -- the next pattern has the same scale
    have hs : 2 ^ 23 ≤ significand n + 1 ∨ scale n = 0 :=
      (le_significand_or n).imp_left Nat.le_succ_of_le
    have hnext : units (n + 1) = (significand n + 1) * 2 ^ scale n := by
      rw [← units_add hm hs]
      congr 1
      omega
    rw [hnext, units]
    exact Nat.mul_lt_mul_of_pos_right (Nat.lt_succ_self _) (Nat.two_pow_pos _)
  · -- the significand is all ones, and the next pattern begins the next scale
    have hlast : significand n + 1 = 2 ^ 24 := by
      have := significand_lt n
      omega
    have hnext : units (n + 1) = 2 ^ 23 * 2 ^ (scale n + 1) := by
      rw [← units_add (by decide) (Or.inl le_rfl)]
      congr 1
      omega
    calc units n
        < 2 ^ 24 * 2 ^ scale n :=
          Nat.mul_lt_mul_of_pos_right (by omega) (Nat.two_pow_pos _)
      _ = 2 ^ 23 * 2 ^ (scale n + 1) := by ring
      _ = units (n + 1) := hnext.symm

/-! ### The fields of a word -/

theorem toNat_unpackMantissa (b : BitVec 32) :
    (@unpackMantissa Format.binary32 b).toNat = b.toNat % 2 ^ 23 := by
  simp [unpackMantissa]

theorem toNat_unpackExponent (b : BitVec 32) :
    (@unpackExponent Format.binary32 b).toNat = b.toNat / 2 ^ 23 % 2 ^ 8 := by
  simp [unpackExponent, Nat.shiftRight_eq_div_pow]

theorem toNat_unpackSign (b : BitVec 32) :
    (@unpackSign Format.binary32 b).toNat = b.toNat / 2 ^ 31 := by
  have hb := b.isLt
  simp only [unpackSign, BitVec.extractLsb, BitVec.toNat_cast, BitVec.extractLsb'_toNat,
    Nat.shiftRight_eq_div_pow]
  omega

theorem toNat_packComponents (s : Sign) (e : BitVec 8) (m : BitVec 23) :
    (packComponents Format.binary32 s e m).toNat
      = s.toBitVec.toNat * 2 ^ 31 + e.toNat * 2 ^ 23 + m.toNat := by
  rw [packComponents, BitVec.toNat_append, ← Nat.shiftLeft_add_eq_or_of_lt m.isLt,
    BitVec.toNat_append, ← Nat.shiftLeft_add_eq_or_of_lt e.isLt, Nat.shiftLeft_eq,
    Nat.shiftLeft_eq]
  ring

theorem toNat_hiddenBit_append (b : BitVec 32) :
    (1#1 ++ @unpackMantissa Format.binary32 b).toNat = 2 ^ 23 + b.toNat % 2 ^ 23 := by
  rw [BitVec.toNat_append, ← Nat.shiftLeft_add_eq_or_of_lt (BitVec.isLt _), toNat_unpackMantissa]
  rfl

/-- The sign that the highest bit of a word stands for. -/
def signOf (word : Nat) : Sign := if word < 2 ^ 31 then .positive else .negative

theorem ofBitVec_unpackSign (b : BitVec 32) :
    Sign.ofBitVec (@unpackSign Format.binary32 b) = signOf b.toNat := by
  have hb := toNat_unpackSign b
  have hlt := b.isLt
  unfold Sign.ofBitVec signOf
  -- the sign bit is what is left above the lower 31 bits
  rcases Nat.lt_or_ge b.toNat (2 ^ 31) with h | h
  · rw [if_pos h, if_pos (by rw [← BitVec.toNat_inj, hb, BitVec.toNat_zero]; omega)]
  · rw [if_neg (Nat.not_lt.2 h), if_neg (by rw [← BitVec.toNat_inj, hb, BitVec.toNat_zero]; omega)]

/-! ### Reading and writing words -/

/-- The number with a sign and a pattern that is no NaN. -/
def decode (s : Sign) (n : Nat) : UnpackedFloat :=
  if h : n = 0 then .zero s
  else if n = infinitePattern then .infinity s
  else .finite s (significand n) (scale n - 149) (significand_pos h)

theorem decode_zero (s : Sign) : decode s 0 = .zero s := rfl

theorem decode_infinitePattern (s : Sign) : decode s infinitePattern = .infinity s := by
  rw [decode, dif_neg (by decide), if_pos rfl]

theorem decode_finite {n : Nat} (s : Sign) (h₀ : n ≠ 0) (h : n ≠ infinitePattern) :
    decode s n = .finite s (significand n) (scale n - 149) (significand_pos h₀) := by
  rw [decode, dif_neg h₀, if_neg h]

theorem decode_cases {n : Nat} (s : Sign) (h : n ≤ infinitePattern) :
    (n = 0 ∧ decode s n = .zero s) ∨ (n = infinitePattern ∧ decode s n = .infinity s) ∨
      (0 < n ∧ n < infinitePattern ∧
        ∃ hp, decode s n = .finite s (significand n) (scale n - 149) hp) := by
  rcases Nat.eq_zero_or_pos n with rfl | h₀
  · exact Or.inl ⟨rfl, decode_zero s⟩
  · rcases Nat.lt_or_ge n infinitePattern with hn | hn
    · exact Or.inr (Or.inr ⟨h₀, hn, _, decode_finite s h₀.ne' hn.ne⟩)
    · obtain rfl : n = infinitePattern := le_antisymm h hn
      exact Or.inr (Or.inl ⟨rfl, decode_infinitePattern s⟩)

/-- **Reading a word.** Up to the pattern of infinity, a word holds the number of its sign and its
pattern. -/
theorem unpack_eq_decode (b : BitVec 32) (h : b.toNat % 2 ^ 31 ≤ infinitePattern) :
    UnpackedFloat.unpack Format.binary32 b = decode (signOf b.toNat) (b.toNat % 2 ^ 31) := by
  have hm := toNat_unpackMantissa b
  have he := toNat_unpackExponent b
  have hbias : (Format.binary32.exponentBias : Int) = 127 := by decide
  have hones : (-1#8).toNat = 255 := rfl
  generalize hn : b.toNat % 2 ^ 31 = n at h ⊢
  unfold infinitePattern at h
  -- every test on a field becomes one on the word, for `omega` to compare with `n`
  unfold UnpackedFloat.unpack
  dsimp only
  rw [ofBitVec_unpackSign]
  split_ifs with hinf hzero hsub hzero
  · -- the largest exponent field and no mantissa
    rw [← BitVec.toNat_inj, he, hones] at hinf
    rw [← BitVec.toNat_inj, hm, BitVec.toNat_zero] at hzero
    obtain rfl : n = infinitePattern := by unfold infinitePattern; omega
    exact (decode_infinitePattern _).symm
  · -- a mantissa beside the largest exponent field is beyond infinity
    rw [← BitVec.toNat_inj, he, hones] at hinf
    rw [← BitVec.toNat_inj, hm, BitVec.toNat_zero] at hzero
    omega
  · rw [← BitVec.toNat_inj, he, BitVec.toNat_zero] at hsub
    rw [← BitVec.toNat_inj, hm, BitVec.toNat_zero] at hzero
    obtain rfl : n = 0 := by omega
    exact (decode_zero _).symm
  · -- exponent field zero: no hidden bit
    rw [← BitVec.toNat_inj, he, BitVec.toNat_zero] at hsub
    rw [← BitVec.toNat_inj, hm, BitVec.toNat_zero] at hzero
    rw [decode_finite _ (by omega) (by unfold infinitePattern; omega),
      UnpackedFloat.finite.injEq]
    refine ⟨rfl, ?_, ?_⟩
    · rw [hm, significand, scale]
      omega
    · rw [he, hsub, hbias, scale]
      omega
  · -- any other exponent field: the hidden bit in front of the mantissa
    rw [← BitVec.toNat_inj, he, hones] at hinf
    rw [← BitVec.toNat_inj, he, BitVec.toNat_zero] at hsub
    rw [decode_finite _ (by omega) (by unfold infinitePattern; omega),
      UnpackedFloat.finite.injEq]
    refine ⟨rfl, ?_, ?_⟩
    · rw [toNat_hiddenBit_append, significand, scale]
      omega
    · rw [he, hbias, scale]
      omega

/-- Above the pattern of infinity, a word holds a NaN. -/
theorem unpack_eq_notANumber (b : BitVec 32) (h : infinitePattern < b.toNat % 2 ^ 31) :
    UnpackedFloat.unpack Format.binary32 b = .notANumber := by
  have hm := toNat_unpackMantissa b
  have he := toNat_unpackExponent b
  have hones : (-1#8).toNat = 255 := rfl
  unfold infinitePattern at h
  unfold UnpackedFloat.unpack
  dsimp only
  rw [if_pos (by rw [← BitVec.toNat_inj, he, hones]; omega),
    if_neg (by rw [← BitVec.toNat_inj, hm, BitVec.toNat_zero]; omega)]

/-- **Writing a word.** A factor and a power of two become sign and pattern; what is beyond the
largest finite number becomes infinity. -/
theorem toNat_pack_finite (s : Sign) {k m : Nat} (hp : 0 < m) (hm : m < 2 ^ 24)
    (h : 2 ^ 23 ≤ m ∨ k = 0) :
    (UnpackedFloat.pack Format.binary32 (.finite s m (k - 149) hp)).toNat
      = s.toBitVec.toNat * 2 ^ 31 + min (k * 2 ^ 23 + m) infinitePattern := by
  -- the exponent field of a number whose factor has its highest bit
  have hbias : ((k : Int) - 149 + Format.binary32.exponentBias
      + Format.binary32.mantissaBitsWithoutImplicit).toNat = k + 1 := by
    rw [show (Format.binary32.exponentBias : Int) = 127 by decide,
      show (Format.binary32.mantissaBitsWithoutImplicit : Int) = 23 from rfl]
    omega
  -- whether the factor has that bit is what tells normal numbers apart
  have hlog : m.log2 + 1 = Format.binary32.mantissaBits ↔ 2 ^ 23 ≤ m := by
    rw [show Format.binary32.mantissaBits = 24 from rfl, ← Nat.le_log2 hp.ne']
    have := (Nat.log2_lt hp.ne').2 hm
    omega
  unfold infinitePattern
  simp only [UnpackedFloat.pack, hbias, hlog]
  split_ifs with hbig hnormal
  · -- the exponent does not fit
    rw [packedInfinity, toNat_packComponents, show (-1#8).toNat = 255 from rfl]
    simp only [BitVec.ofNat_eq_ofNat, BitVec.toNat_zero]
    omega
  · -- the hidden bit goes into the exponent field
    rw [toNat_packComponents, BitVec.toNat_ofNat, BitVec.toNat_ofNat]
    omega
  · rw [toNat_packComponents, BitVec.toNat_ofNat, BitVec.toNat_ofNat]
    omega

theorem toNat_pack_decode {n : Nat} (s : Sign) (h : n ≤ infinitePattern) :
    (UnpackedFloat.pack Format.binary32 (decode s n)).toNat
      = s.toBitVec.toNat * 2 ^ 31 + n := by
  -- only the finite numbers have to be put together again
  rcases decode_cases s h with ⟨rfl, hf⟩ | ⟨rfl, hf⟩ | ⟨-, hn, hp, hf⟩
  · rw [hf]
    cases s <;> rfl
  · rw [hf]
    cases s <;> rfl
  · rw [hf, toNat_pack_finite s hp (significand_lt n) (le_significand_or n),
      scale_mul_add_significand, min_eq_left hn.le]

/-! ### Comparison -/

private theorem compare_sign_self (s : Sign) : compare s s = .eq := by cases s <;> rfl

private theorem swap_compare (a b : Int) : (compare a b).swap = compare (-a) (-b) := by
  rcases Int.lt_trichotomy a b with h | rfl | h
  · rw [Int.compare_eq_lt.2 h, Int.compare_eq_gt.2 (by omega), Ordering.swap_lt]
  · simp
  · rw [Int.compare_eq_gt.2 h, Int.compare_eq_lt.2 (by omega), Ordering.swap_gt]

/-- The power first and then the factor: the order of patterns. -/
theorem compare_scale_then_significand (m n : Nat) :
    (compare ((scale m : Int) - 149) (scale n - 149)).then
      (compare (significand m) (significand n)) = compare (m : Int) n := by
  rcases Nat.lt_trichotomy m n with h | rfl | h
  · rw [Int.compare_eq_lt.2 (by omega : (m : Int) < n)]
    rcases Nat.lt_or_ge (scale m) (scale n) with hs | hs
    · rw [Int.compare_eq_lt.2 (by omega)]
      rfl
    · rw [Int.compare_eq_eq.2 (by unfold scale at *; omega),
        Nat.compare_eq_lt.2 (by unfold significand scale at *; omega)]
      rfl
  · simp
  · rw [Int.compare_eq_gt.2 (by omega : (n : Int) < m)]
    rcases Nat.lt_or_ge (scale n) (scale m) with hs | hs
    · rw [Int.compare_eq_gt.2 (by omega)]
      rfl
    · rw [Int.compare_eq_eq.2 (by unfold scale at *; omega),
        Nat.compare_eq_gt.2 (by unfold significand scale at *; omega)]
      rfl

/-- **Numbers compare as their patterns with a sign do.** -/
theorem compare_decode {m n : Nat} (s t : Sign) (hm : m ≤ infinitePattern)
    (hn : n ≤ infinitePattern) :
    (decode s m).compare (decode t n) = some (compare (s.apply m) (t.apply n)) := by
  have hinf : (0 : Int) < infinitePattern := by decide
  have hlt {a b : Int} (h : a < b) : some Ordering.lt = some (compare a b) := by
    rw [Int.compare_eq_lt.2 h]
  have hgt {a b : Int} (h : b < a) : some Ordering.gt = some (compare a b) := by
    rw [Int.compare_eq_gt.2 h]
  -- three kinds of numbers and two signs on each side
  rcases decode_cases s hm with ⟨rfl, hf⟩ | ⟨rfl, hf⟩ | ⟨hm₀, hm, hp, hf⟩ <;>
    rcases decode_cases t hn with ⟨rfl, hg⟩ | ⟨rfl, hg⟩ | ⟨hn₀, hn, hq, hg⟩ <;>
    rw [hf, hg] <;> cases s <;> cases t <;>
    simp only [UnpackedFloat.compare, Sign.apply, compare_scale_then_significand,
      swap_compare] <;>
    first
    | exact hlt (by omega)
    | exact hgt (by omega)
    | simp [compare_sign_self]

end Sidescroller.Binary32
