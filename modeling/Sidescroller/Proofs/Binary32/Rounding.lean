import Sidescroller.Proofs.Binary32.Pattern

/-!
# Rounding whole numbers

In units of `2 ^ (-149)` the sum of two finite binary32 numbers is a whole number, and rounding it
means to keep its 24 highest bits. `roundUnits` does that for magnitudes: it takes the nearest
multiple of the right power of two, and of two nearest the one with the even factor.

* `roundUnits_mono` — rounding is monotone, also where the power of two changes;
* `roundUnits_units` — magnitudes of binary32 numbers stay what they are;
* `round_eq` — the library's rounding of a factor and a power of two has this magnitude.
-/

namespace Sidescroller.Binary32

open Float.Model (Format UnpackedFloat totalExponent)
open Float.Model.UnpackedFloat
  (Sign ExtendedMantissa Accuracy shiftToTargetExponent shiftToExponent decreaseExponent)

/-! ### The nearest multiple of a power of two -/

/-- The factor of the multiple of `2 ^ k` that is nearest to `n`, the even one of two. -/
def nearest (n k : Nat) : Nat :=
  if 2 * (n % 2 ^ k) < 2 ^ k then n / 2 ^ k
  else if 2 * (n % 2 ^ k) = 2 ^ k then n / 2 ^ k + n / 2 ^ k % 2
  else n / 2 ^ k + 1

theorem div_le_nearest (n k : Nat) : n / 2 ^ k ≤ nearest n k := by
  unfold nearest
  split_ifs <;> omega

theorem nearest_le (n k : Nat) : nearest n k ≤ n / 2 ^ k + 1 := by
  unfold nearest
  split_ifs <;> omega

theorem nearest_mul_two_pow (n j i : Nat) : nearest (n * 2 ^ j) (j + i) = nearest n i := by
  -- the common factor cancels from the quotient and stays in the rest
  have hj := Nat.two_pow_pos j
  have hdiv : n * 2 ^ j / 2 ^ (j + i) = n / 2 ^ i := by
    rw [pow_add, mul_comm n, Nat.mul_div_mul_left _ _ hj]
  have hmod : n * 2 ^ j % 2 ^ (j + i) = 2 ^ j * (n % 2 ^ i) := by
    rw [pow_add, mul_comm n, Nat.mul_mod_mul_left]
  have hscale : 2 * (2 ^ j * (n % 2 ^ i)) = 2 ^ j * (2 * (n % 2 ^ i)) := by ring
  unfold nearest
  rw [hdiv, hmod, hscale, pow_add]
  simp only [Nat.mul_lt_mul_left hj, Nat.mul_right_inj hj.ne']

theorem nearest_mul_self (n k : Nat) : nearest (n * 2 ^ k) k = n := by
  have h := nearest_mul_two_pow n k 0
  rw [Nat.add_zero] at h
  rw [h]
  simp [nearest, Nat.mod_one]

theorem nearest_mono {m n : Nat} (k : Nat) (h : m ≤ n) : nearest m k ≤ nearest n k := by
  have hdiv : m / 2 ^ k ≤ n / 2 ^ k := Nat.div_le_div_right h
  rcases Nat.lt_or_ge (m / 2 ^ k) (n / 2 ^ k) with hlt | hge
  · -- another multiple lies between the two
    exact (nearest_le m k).trans (le_trans hlt (div_le_nearest n k))
  · -- both lie between the same multiples, and the rests decide
    have hq : m / 2 ^ k = n / 2 ^ k := le_antisymm hdiv hge
    have hm := Nat.div_add_mod m (2 ^ k)
    have hn := Nat.div_add_mod n (2 ^ k)
    rw [← hq] at hn
    unfold nearest
    rw [← hq]
    split_ifs <;> omega

/-! ### Rounding to 24 bits -/

/-- The power of two that rounding a magnitude keeps. -/
def keptScale (n : Nat) : Nat := n.log2 - 23

/-- A magnitude rounded to 24 bits. -/
def roundUnits (n : Nat) : Nat := nearest n (keptScale n) * 2 ^ keptScale n

theorem nearest_keptScale_le (n : Nat) : nearest n (keptScale n) ≤ 2 ^ 24 := by
  have hlt : n < 2 ^ 24 * 2 ^ keptScale n := by
    rw [← pow_add]
    refine lt_of_lt_of_le Nat.lt_log2_self (Nat.pow_le_pow_right (by decide) ?_)
    unfold keptScale
    omega
  have hdiv := (Nat.div_lt_iff_lt_mul (Nat.two_pow_pos (keptScale n))).2 hlt
  exact (nearest_le n _).trans hdiv

theorem le_nearest_keptScale {n : Nat} (h : 0 < keptScale n) :
    2 ^ 23 ≤ nearest n (keptScale n) := by
  have hlog : 2 ^ n.log2 ≤ n := Nat.log2_self_le (by rintro rfl; simp [keptScale] at h)
  have hle : 2 ^ 23 * 2 ^ keptScale n ≤ n := by
    rw [← pow_add]
    refine le_trans (Nat.pow_le_pow_right (by decide) ?_) hlog
    unfold keptScale at h ⊢
    omega
  exact ((Nat.le_div_iff_mul_le (Nat.two_pow_pos _)).2 hle).trans (div_le_nearest n _)

theorem roundUnits_of_keptScale_eq_zero {n : Nat} (h : keptScale n = 0) : roundUnits n = n := by
  have := nearest_mul_self n 0
  rw [pow_zero, mul_one] at this
  rw [roundUnits, h, this, pow_zero, mul_one]

/-- Rounding does not go beyond the next power of two. -/
theorem roundUnits_le (n : Nat) : roundUnits n ≤ 2 ^ (n.log2 + 1) := by
  rcases Nat.eq_zero_or_pos (keptScale n) with h | h
  · rw [roundUnits_of_keptScale_eq_zero h]
    exact Nat.lt_log2_self.le
  · have hk : n.log2 + 1 = 24 + keptScale n := by
      unfold keptScale at h ⊢
      omega
    rw [hk, pow_add]
    exact Nat.mul_le_mul_right _ (nearest_keptScale_le n)

/-- Rounding does not go below the last power of two. -/
theorem le_roundUnits {n : Nat} (hn : n ≠ 0) : 2 ^ n.log2 ≤ roundUnits n := by
  rcases Nat.eq_zero_or_pos (keptScale n) with h | h
  · rw [roundUnits_of_keptScale_eq_zero h]
    exact Nat.log2_self_le hn
  · have hk : n.log2 = 23 + keptScale n := by
      unfold keptScale at h ⊢
      omega
    calc 2 ^ n.log2 = 2 ^ 23 * 2 ^ keptScale n := by rw [hk, pow_add]
      _ ≤ roundUnits n := Nat.mul_le_mul_right _ (le_nearest_keptScale h)

/-- **Rounding is monotone.** -/
theorem roundUnits_mono : Monotone roundUnits := by
  intro m n h
  rcases Nat.eq_zero_or_pos m with rfl | hm
  · exact (roundUnits_of_keptScale_eq_zero rfl).trans_le (Nat.zero_le _)
  · have hlog : m.log2 ≤ n.log2 :=
      (Nat.le_log2 (by omega)).2 ((Nat.log2_self_le hm.ne').trans h)
    rcases Nat.lt_or_ge m.log2 n.log2 with hlt | hge
    · -- a power of two lies between the two results
      calc roundUnits m ≤ 2 ^ (m.log2 + 1) := roundUnits_le m
        _ ≤ 2 ^ n.log2 := Nat.pow_le_pow_right (by decide) hlt
        _ ≤ roundUnits n := le_roundUnits (by omega)
    · -- the same multiples are at hand for both
      have hk : keptScale m = keptScale n := by
        unfold keptScale
        omega
      unfold roundUnits
      rw [hk]
      exact Nat.mul_le_mul_right _ (nearest_mono _ h)

theorem log2_mul_two_pow {m : Nat} (hm : m ≠ 0) (k : Nat) : (m * 2 ^ k).log2 = m.log2 + k := by
  have hpos : m * 2 ^ k ≠ 0 := Nat.mul_ne_zero hm (Nat.two_pow_pos k).ne'
  refine (Nat.log2_eq_iff hpos).2 ⟨?_, ?_⟩
  · rw [pow_add]
    exact Nat.mul_le_mul_right _ (Nat.log2_self_le hm)
  · rw [show m.log2 + k + 1 = m.log2 + 1 + k by omega, pow_add]
    exact Nat.mul_lt_mul_of_pos_right Nat.lt_log2_self (Nat.two_pow_pos k)

/-- **Magnitudes of binary32 numbers stay what they are.** -/
theorem roundUnits_units (n : Nat) : roundUnits (units n) = units n := by
  rcases Nat.eq_zero_or_pos n with rfl | hn
  · rfl
  · have hs := significand_pos hn.ne'
    have hlog : (units n).log2 = (significand n).log2 + scale n :=
      log2_mul_two_pow hs.ne' _
    have hlt : (significand n).log2 < 24 := (Nat.log2_lt hs.ne').2 (significand_lt n)
    rcases le_significand_or n with h | h
    · -- 24 bits: the kept power is the scale
      have hge : 23 ≤ (significand n).log2 := (Nat.le_log2 hs.ne').2 h
      have hk : keptScale (units n) = scale n := by
        unfold keptScale
        omega
      rw [roundUnits, hk, units, nearest_mul_self]
    · -- the lowest scale: nothing is cut off
      refine roundUnits_of_keptScale_eq_zero ?_
      unfold keptScale
      omega

/-! ### Rounding as a walk over bits -/

/-- What is known of `n` after its last `k` bits were shifted out: the bits that are left, whether
the rest is at least one half of `2 ^ k`, and whether it is something else than zero or one half. -/
structure ShiftedBy (n k : Nat) (em : ExtendedMantissa) : Prop where
  mantissa_eq : em.mantissa = n / 2 ^ k
  roundBit_iff : em.roundBit = true ↔ 2 ^ k ≤ 2 * (n % 2 ^ k)
  stickyBit_iff : em.stickyBit = true ↔ 2 * (n % 2 ^ k) ≠ 0 ∧ 2 * (n % 2 ^ k) ≠ 2 ^ k

theorem ShiftedBy.zero (n : Nat) :
    ShiftedBy n 0 (ExtendedMantissa.ofMantissaAndAccuracy n .exact) := by
  constructor <;> simp [ExtendedMantissa.ofMantissaAndAccuracy, Nat.mod_one]

theorem ShiftedBy.succ {n k : Nat} {em : ExtendedMantissa} (h : ShiftedBy n k em) :
    ShiftedBy n (k + 1) em.shiftRightOne := by
  obtain ⟨hm, hr, hs⟩ := h
  have hp := Nat.two_pow_pos k
  have hlt := Nat.mod_lt n hp
  -- the bit that is shifted out joins the rest
  have hrest : n % 2 ^ (k + 1) = 2 ^ k * (n / 2 ^ k % 2) + n % 2 ^ k := by
    rw [pow_succ, Nat.mod_mul]
    omega
  have hbit := Nat.mod_two_eq_zero_or_one (n / 2 ^ k)
  refine ⟨?_, ?_, ?_⟩
  · change em.mantissa / 2 = _
    rw [hm, Nat.div_div_eq_div_mul, pow_succ]
  · change (em.mantissa % 2 != 0) = true ↔ _
    rw [hm, hrest, pow_succ, bne_iff_ne]
    rcases hbit with hb | hb <;> rw [hb] <;> omega
  · change (em.roundBit || em.stickyBit) = true ↔ _
    rw [Bool.or_eq_true, hr, hs, hrest, pow_succ]
    rcases hbit with hb | hb <;> rw [hb] <;> omega

theorem ShiftedBy.shiftRight (n k : Nat) :
    ShiftedBy n k (ExtendedMantissa.ofMantissaAndAccuracy n .exact >>> k) := by
  change ShiftedBy n k (k.repeat ExtendedMantissa.shiftRightOne _)
  induction k with
  | zero => exact ShiftedBy.zero n
  | succ k ih => exact ih.succ

/-- The bits that were shifted out decide where the mantissa is rounded to. -/
theorem ShiftedBy.roundedMantissa {n k : Nat} {em : ExtendedMantissa} (h : ShiftedBy n k em) :
    em.roundedMantissa = nearest n k := by
  obtain ⟨hm, hr, hs⟩ := h
  have hp := Nat.two_pow_pos k
  rcases em with ⟨m, r, s⟩
  dsimp only at hm hr hs
  -- the two bits tell the three cases of `nearest` apart, and zero rest as a fourth
  subst hm
  cases r <;> cases s <;>
    simp only [Bool.false_eq_true, false_iff, true_iff] at hr hs <;>
    simp only [ExtendedMantissa.roundedMantissa, ExtendedMantissa.accuracy,
      Accuracy.roundToNearestEven, nearest] <;>
    split_ifs <;> omega

/-! ### The library's rounding -/

theorem targetExponent_eq {m : Nat} (hm : m ≠ 0) (j : Nat) :
    Format.binary32.targetExponent (totalExponent m ((j : Int) - 149))
      = (keptScale (m * 2 ^ j) : Int) - 149 := by
  have hlog := log2_mul_two_pow hm j
  have hbits : (Format.binary32.mantissaBits : Int) = 24 := rfl
  have hmin : Format.binary32.minExponent = -149 := by decide
  unfold Format.targetExponent totalExponent keptScale
  rw [hbits, hmin]
  omega

/-- Shifting an exact factor to the exponent that its magnitude asks for. -/
theorem shiftToTargetExponent_eq {m : Nat} (hm : m ≠ 0) (j : Nat) :
    ∃ em, shiftToTargetExponent Format.binary32 m ((j : Int) - 149) .exact
        = (em, ((max j (keptScale (m * 2 ^ j)) : Nat) : Int) - 149) ∧
      ShiftedBy m (keptScale (m * 2 ^ j) - j) em := by
  -- the shift is by the difference of the exponents, or by nothing
  refine ⟨_, ?_, ShiftedBy.shiftRight m _⟩
  have hshift : ((keptScale (m * 2 ^ j) : Int) - 149 - ((j : Int) - 149)).toNat
      = keptScale (m * 2 ^ j) - j := by omega
  rw [shiftToTargetExponent, targetExponent_eq hm, shiftToExponent, hshift]
  congr 1
  omega

/-- The second shift of a rounding. The rounded factor fits already, or it is `2 ^ 24` because
rounding carried, and loses its last zero. -/
theorem shiftToTargetExponent_carry {r K : Nat} (hle : r ≤ 2 ^ 24) (hpos : 0 < r)
    (hlow : 2 ^ 23 ≤ r ∨ K = 0) :
    ∃ em, ∃ k : Nat, shiftToTargetExponent Format.binary32 r ((K : Int) - 149) .exact
        = (em, (k : Int) - 149) ∧
      em.mantissa < 2 ^ 24 ∧ (2 ^ 23 ≤ em.mantissa ∨ k = 0) ∧ em.mantissa * 2 ^ k = r * 2 ^ K := by
  obtain ⟨em, hshift, hem⟩ := shiftToTargetExponent_eq hpos.ne' K
  have hlog := log2_mul_two_pow hpos.ne' K
  rcases Nat.lt_or_ge r (2 ^ 24) with hlt | hge
  · -- no carry: the shift is by nothing
    have hkept : keptScale (r * 2 ^ K) ≤ K := by
      have := (Nat.log2_lt hpos.ne').2 hlt
      unfold keptScale
      omega
    have hmant : em.mantissa = r := by
      rw [hem.mantissa_eq, Nat.sub_eq_zero_of_le hkept, pow_zero, Nat.div_one]
    rw [max_eq_left hkept] at hshift
    exact ⟨em, K, hshift, by omega, by omega, by rw [hmant]⟩
  · -- a carry: the shift drops a zero
    have hr : r = 2 ^ 24 := le_antisymm hle hge
    have hkept : keptScale (r * 2 ^ K) = K + 1 := by
      rw [keptScale, hlog, hr, Nat.log2_two_pow]
      omega
    have hmant : em.mantissa = 2 ^ 23 := by
      rw [hem.mantissa_eq, hkept, hr, Nat.add_sub_cancel_left]
      rfl
    rw [hkept, max_eq_right (Nat.le_succ K)] at hshift
    refine ⟨em, K + 1, hshift, by omega, Or.inl hmant.ge, ?_⟩
    rw [hmant, hr]
    ring

/-- What rounding returns: a factor below `2 ^ 24`, with its highest bit set unless the power of two
is the lowest one. Their product is the rounded magnitude. -/
def RoundsTo (s : Sign) (n : Nat) (f : UnpackedFloat) : Prop :=
  ∃ (k r : Nat) (hp : 0 < r), f = .finite s r ((k : Int) - 149) hp ∧ r < 2 ^ 24 ∧
    (2 ^ 23 ≤ r ∨ k = 0) ∧ r * 2 ^ k = roundUnits n

theorem roundWithAccuracy_eq (s : Sign) {m : Nat} (hm : m ≠ 0) {j : Nat}
    (hj : j ≤ keptScale (m * 2 ^ j)) :
    RoundsTo s (m * 2 ^ j)
      (UnpackedFloat.roundWithAccuracy Format.binary32 s m ((j : Int) - 149) .exact) := by
  obtain ⟨em, hshift, hem⟩ := shiftToTargetExponent_eq hm j
  set K := keptScale (m * 2 ^ j) with hK
  -- the low `j` bits are zeros, so it does not matter where they are cut off
  have hr : em.roundedMantissa = nearest (m * 2 ^ j) K := by
    rw [hem.roundedMantissa, ← nearest_mul_two_pow m j, Nat.add_sub_cancel' hj]
  have hlow : 2 ^ 23 ≤ nearest (m * 2 ^ j) K ∨ K = 0 :=
    (Nat.eq_zero_or_pos K).symm.imp_left le_nearest_keptScale
  -- rounding does not round a magnitude down to zero
  have hpos : 0 < nearest (m * 2 ^ j) K := by
    rcases hlow with h | h
    · exact lt_of_lt_of_le (by decide) h
    · -- nothing is cut off
      have hself := roundUnits_of_keptScale_eq_zero (h ▸ hK.symm)
      rw [roundUnits, ← hK, h, pow_zero, mul_one, ← h] at hself
      rw [hself]
      exact Nat.mul_pos (Nat.pos_of_ne_zero hm) (Nat.two_pow_pos j)
  obtain ⟨em', k, hshift', hlt', hlow', hprod⟩ :=
    shiftToTargetExponent_carry (nearest_keptScale_le _) hpos hlow
  have hpos' : 0 < em'.mantissa := by
    refine Nat.pos_of_ne_zero fun h => ?_
    rw [h, zero_mul] at hprod
    exact (Nat.mul_pos hpos (Nat.two_pow_pos K)).ne hprod
  unfold UnpackedFloat.roundWithAccuracy
  -- shift, round, and shift once more
  rw [hshift]
  dsimp only
  rw [hr, max_eq_right hj, hshift']
  dsimp only
  rw [dif_neg hpos'.ne']
  exact ⟨k, em'.mantissa, hpos', rfl, hlt', hlow', hprod⟩

/-- **The library's rounding** of the factor `m` and the power `2 ^ j`, both counted from the
smallest positive number. -/
theorem round_eq (s : Sign) {m : Nat} (hm : m ≠ 0) (j : Nat) :
    RoundsTo s (m * 2 ^ j) (UnpackedFloat.round Format.binary32 s m ((j : Int) - 149)) := by
  set K := keptScale (m * 2 ^ j) with hK
  -- zeros are put in where the power is higher than the one to keep
  have hprod : m * 2 ^ (j - K) * 2 ^ min j K = m * 2 ^ j := by
    rw [mul_assoc, ← pow_add]
    congr 2
    omega
  have hdec : decreaseExponent m ((j : Int) - 149) ((K : Int) - 149)
      = (m * 2 ^ (j - K), ((min j K : Nat) : Int) - 149) := by
    have hshift : ((j : Int) - 149 - ((K : Int) - 149)).toNat = j - K := by omega
    rw [decreaseExponent, hshift, Nat.shiftLeft_eq]
    congr 1
    omega
  have hm' : m * 2 ^ (j - K) ≠ 0 := Nat.mul_ne_zero hm (Nat.two_pow_pos _).ne'
  have h := roundWithAccuracy_eq s hm' (j := min j K) (by rw [hprod]; exact min_le_right _ _)
  rw [hprod] at h
  unfold UnpackedFloat.round
  rw [targetExponent_eq hm, ← hK]
  dsimp only
  rw [hdec]
  exact h

end Sidescroller.Binary32
