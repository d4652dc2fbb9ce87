import Sidescroller.Proofs.Binary32.Rounding
import Sidescroller.Proofs.Binary32.Value

/-!
# Addition of binary32 numbers

The sum of two finite numbers is the exact sum of their values, rounded by `roundValue`. With an
infinite operand the sum is that operand, unless the other one is the opposite infinity.

Rounding is monotone, so a sum grows with its first operand. It does so strictly enough for what the
collision code asks: which edges a far side passes depends on the position alone.

* `value_add` — the sum of finite numbers;
* `lt_add_of_value_le` — an edge that a far side passes is passed from further on, too;
* `value_add_of_beq_zero` — adding a zero changes nothing.
-/

namespace Sidescroller.Binary32

open Float.Model (Format UnpackedFloat)
open Float.Model.UnpackedFloat (Sign)

/-! ### Rounding values -/

/-- The magnitude of the infinities. -/
def infiniteUnits : Nat := units infinitePattern

theorem infiniteUnits_pos : 0 < infiniteUnits := units_strictMono (by decide : 0 < infinitePattern)

/-- A value rounded to one that a number has: to 24 bits, and to infinity beyond the finite
numbers. -/
def roundValue (v : Int) : Int :=
  if v < 0 then -(min (roundUnits v.natAbs) infiniteUnits : Nat)
  else (min (roundUnits v.natAbs) infiniteUnits : Nat)

/-- **Rounding is monotone**, on both sides of zero and across it. -/
theorem roundValue_mono {v w : Int} (h : v ≤ w) : roundValue v ≤ roundValue w := by
  unfold roundValue
  -- magnitudes go down below zero and up above it
  split_ifs with hv hw hw
  · have := roundUnits_mono (show w.natAbs ≤ v.natAbs by omega)
    omega
  · omega
  · omega
  · have := roundUnits_mono (show v.natAbs ≤ w.natAbs by omega)
    omega

theorem roundValue_apply (s : Sign) (n : Nat) :
    roundValue (s.apply n) = s.apply (min (roundUnits n) infiniteUnits : Nat) := by
  rcases Nat.eq_zero_or_pos n with rfl | hn
  · cases s <;> rfl
  · cases s
    · change roundValue (-n) = -_
      rw [roundValue, if_pos (by omega), Int.natAbs_neg, Int.natAbs_natCast]
    · change roundValue n = _
      rw [roundValue, if_neg (by omega), Int.natAbs_natCast]
      rfl

/-- The values that numbers have stay what they are. -/
theorem roundValue_units (s : Sign) {n : Nat} (h : n ≤ infinitePattern) :
    roundValue (s.apply (units n)) = s.apply (units n) := by
  rw [roundValue_apply, roundUnits_units, infiniteUnits,
    min_eq_left (units_strictMono.monotone h)]

theorem roundValue_value {x : Float32} (h : x.isNaN = false) : roundValue (value x) = value x :=
  roundValue_units _ (isNaN_eq_false_iff.1 h)

/-! ### Numbers as results -/

/-- A number that is no NaN, given by its sign and its pattern. -/
theorem value_of_toNat_toBits {z : Float32} {s : Sign} {n : Nat} (hn : n ≤ infinitePattern)
    (h : z.toBits.toNat = s.toBitVec.toNat * 2 ^ 31 + n) :
    z.isNaN = false ∧ value z = s.apply (units n) := by
  -- the sign bit is above the pattern, so the two do not mix
  have hsmall : n < 2 ^ 31 := by
    unfold infinitePattern at hn
    omega
  have hpattern : pattern z = n := by
    rw [pattern, h]
    omega
  have hsign : sign z = s := by
    rw [sign, h, signOf]
    cases s
    · exact if_neg (Nat.not_lt.2 (Nat.le_add_right _ _))
    · exact if_pos (by rw [Sign.toBitVec, BitVec.toNat_ofNat]; omega)
  exact ⟨isNaN_eq_false_iff.2 (hpattern ▸ hn), by rw [value, hpattern, hsign]⟩

theorem value_of_pack_decode {z : Float32} {s : Sign} {n : Nat} (hn : n ≤ infinitePattern)
    (h : z.toBits.toBitVec = UnpackedFloat.pack Format.binary32 (decode s n)) :
    z.isNaN = false ∧ value z = s.apply (units n) :=
  value_of_toNat_toBits hn (congrArg BitVec.toNat h |>.trans (toNat_pack_decode s hn))

theorem value_of_pack_roundsTo {z : Float32} {s : Sign} {n : Nat} {f : UnpackedFloat}
    (hf : RoundsTo s n f) (h : z.toBits.toBitVec = UnpackedFloat.pack Format.binary32 f) :
    z.isNaN = false ∧ value z = roundValue (s.apply n) := by
  obtain ⟨k, r, hp, rfl, hr, hlow, hprod⟩ := hf
  obtain ⟨hnan, hval⟩ := value_of_toNat_toBits (min_le_right _ _)
    (congrArg BitVec.toNat h |>.trans (toNat_pack_finite s hp hr hlow))
  refine ⟨hnan, ?_⟩
  rw [hval, units_strictMono.monotone.map_min, units_add hr hlow, hprod, roundValue_apply,
    infiniteUnits]

theorem isNaN_of_pack_notANumber {z : Float32}
    (h : z.toBits.toBitVec = UnpackedFloat.pack Format.binary32 .notANumber) : z.isNaN = true := by
  change (UnpackedFloat.unpack Format.binary32 z.toBits.toBitVec).isNaN = true
  rw [h]
  decide

/-! ### Sums -/

theorem toBitVec_toBits_add (x y : Float32) :
    (x + y).toBits.toBitVec = UnpackedFloat.pack Format.binary32
      (UnpackedFloat.add Format.binary32 x.toModel.unpack y.toModel.unpack) := rfl

/-- A signed factor and a power of two, rounded. -/
theorem value_of_pack_normalize {z : Float32} (v : Int) (j : Nat)
    (h : z.toBits.toBitVec = UnpackedFloat.pack Format.binary32
      (UnpackedFloat.normalize Format.binary32 v ((j : Int) - 149) .positive)) :
    z.isNaN = false ∧ value z = roundValue (v * 2 ^ j) := by
  -- a sign passes through a product with a power of two
  have happly (s : Sign) (m : Nat) :
      s.apply ((m * 2 ^ j : Nat) : Int) = s.apply (m : Int) * 2 ^ j := by
    cases s <;> simp [Sign.apply]
  -- the library takes sign and magnitude of `v` apart; zero has a case of its own
  unfold UnpackedFloat.normalize at h
  rcases Int.lt_trichotomy v 0 with hv | rfl | hv
  · rw [Int.compare_eq_lt.2 hv] at h
    have hpos : (-v).toNat ≠ 0 := by omega
    have hround := value_of_pack_roundsTo (round_eq .negative hpos j) h
    rwa [happly, Sign.apply, Int.toNat_of_nonneg (by omega), neg_neg] at hround
  · rw [Int.compare_eq_eq.2 rfl] at h
    rw [zero_mul]
    exact value_of_pack_decode (s := .positive) (Nat.zero_le _) h
  · rw [Int.compare_eq_gt.2 hv] at h
    have hpos : v.toNat ≠ 0 := by omega
    have hround := value_of_pack_roundsTo (round_eq .positive hpos j) h
    rwa [happly, Sign.apply, Int.toNat_of_nonneg hv.le] at hround

/-- A magnitude counted in a lower power of two. -/
theorem apply_shiftLeft_significand (s : Sign) (n : Nat) {j : Nat} (h : j ≤ scale n) :
    s.apply (significand n <<< ((scale n : Int) - 149 - ((j : Int) - 149)).toNat : Nat) * 2 ^ j
      = s.apply (units n) := by
  have hshift : ((scale n : Int) - 149 - ((j : Int) - 149)).toNat = scale n - j := by omega
  have hunits : significand n * 2 ^ (scale n - j) * 2 ^ j = units n := by
    rw [mul_assoc, ← pow_add, Nat.sub_add_cancel h, units]
  rw [hshift, Nat.shiftLeft_eq, ← hunits]
  cases s <;> simp [Sign.apply]

/-- **The sum of finite numbers** is the exact sum, rounded. -/
theorem value_add {x y : Float32} (hx : pattern x < infinitePattern)
    (hy : pattern y < infinitePattern) :
    (x + y).isNaN = false ∧ value (x + y) = roundValue (value x + value y) := by
  have hsum := toBitVec_toBits_add x y
  rw [unpack_toModel (isNaN_eq_false_iff.2 hx.le), unpack_toModel (isNaN_eq_false_iff.2 hy.le)]
    at hsum
  have hzero (s : Sign) : s.apply (units 0) = 0 := by cases s <;> rfl
  unfold value
  rcases decode_cases (sign x) hx.le with ⟨hm, hf⟩ | ⟨hm, -⟩ | ⟨-, -, hp, hf⟩
  · rcases decode_cases (sign y) hy.le with ⟨hn, hg⟩ | ⟨hn, -⟩ | ⟨-, -, hq, hg⟩
    · -- two zeros
      rw [hm, hn, hzero, hzero]
      rw [hf, hg, UnpackedFloat.add] at hsum
      split_ifs at hsum with hs
      · have hval := value_of_pack_decode (n := 0) (Nat.zero_le _) hsum
        rwa [hzero] at hval
      · exact value_of_pack_decode (s := .positive) (n := 0) (Nat.zero_le _) hsum
    · exact absurd hn hy.ne
    · -- a zero leaves the other operand alone
      rw [hm, hzero, zero_add, roundValue_units _ hy.le]
      rw [hf, hg] at hsum
      exact value_of_pack_decode hy.le (hg ▸ hsum)
  · exact absurd hm hx.ne
  · rcases decode_cases (sign y) hy.le with ⟨hn, hg⟩ | ⟨hn, -⟩ | ⟨-, -, hq, hg⟩
    · -- and so does a zero on the other side
      rw [hn, hzero, add_zero, roundValue_units _ hx.le]
      rw [hf, hg] at hsum
      exact value_of_pack_decode hx.le (hf ▸ hsum)
    · exact absurd hn hy.ne
    · -- the operands are brought to the lower of the two powers
      have hmin : min ((scale (pattern x) : Int) - 149) (scale (pattern y) - 149)
          = ((min (scale (pattern x)) (scale (pattern y)) : Nat) : Int) - 149 := by omega
      rw [hf, hg, UnpackedFloat.add, hmin] at hsum
      have hround := value_of_pack_normalize _ _ hsum
      rwa [add_mul, apply_shiftLeft_significand _ _ (min_le_left _ _),
        apply_shiftLeft_significand _ _ (min_le_right _ _)] at hround

private theorem unpackedAdd_comm (f g : UnpackedFloat) :
    UnpackedFloat.add Format.binary32 f g = UnpackedFloat.add Format.binary32 g f := by
  cases f <;> cases g <;> simp only [UnpackedFloat.add]
  · rename_i s t
    cases s <;> cases t <;> rfl
  · rename_i s t
    cases s <;> cases t <;> rfl
  · rw [min_comm, Int.add_comm]

protected theorem add_comm (x y : Float32) : x + y = y + x := by
  apply congrArg Float32.ofModel
  apply congrArg Float32.Model.pack
  exact unpackedAdd_comm _ _

theorem isNaN_add_left {x y : Float32} (h : x.isNaN = true) : (x + y).isNaN = true := by
  refine isNaN_of_pack_notANumber ?_
  rw [toBitVec_toBits_add, unpack_toModel_of_isNaN h]
  rfl

theorem isNaN_of_add {x y : Float32} (h : (x + y).isNaN = false) :
    x.isNaN = false ∧ y.isNaN = false := by
  constructor <;> rw [Bool.eq_false_iff] at h ⊢ <;> intro hnan
  · exact h (isNaN_add_left hnan)
  · exact h (Binary32.add_comm x y ▸ isNaN_add_left hnan)

/-! ### Infinite operands -/

theorem natAbs_value (x : Float32) : (value x).natAbs = units (pattern x) := by
  unfold value
  cases sign x <;> simp only [Sign.apply] <;> omega

theorem natAbs_value_le {x : Float32} (h : x.isNaN = false) : (value x).natAbs ≤ infiniteUnits := by
  rw [natAbs_value]
  exact units_strictMono.monotone (isNaN_eq_false_iff.1 h)

theorem natAbs_value_lt {x : Float32} (h : pattern x < infinitePattern) :
    (value x).natAbs < infiniteUnits := by
  rw [natAbs_value]
  exact units_strictMono h

theorem natAbs_value_of_infinite {x : Float32} (h : pattern x = infinitePattern) :
    (value x).natAbs = infiniteUnits := by
  rw [natAbs_value, h, infiniteUnits]

/-- **A sum with an infinite operand** is that operand, or a NaN if the other operand is the
opposite infinity. -/
theorem value_add_of_infinite {x y : Float32} (hx : pattern x = infinitePattern)
    (hy : y.isNaN = false) :
    (value y ≠ -value x ∧ (x + y).isNaN = false ∧ value (x + y) = value x) ∨
      (value y = -value x ∧ (x + y).isNaN = true) := by
  have hsum := toBitVec_toBits_add x y
  rw [unpack_toModel (isNaN_eq_false_iff.2 hx.le), unpack_toModel hy, hx,
    decode_infinitePattern] at hsum
  have habs := natAbs_value_of_infinite hx
  -- what is left of both cases in which the infinity wins
  have hself (h : (x + y).toBits.toBitVec
      = UnpackedFloat.pack Format.binary32 (.infinity (sign x))) :
      (x + y).isNaN = false ∧ value (x + y) = value x := by
    rw [← decode_infinitePattern] at h
    have hval := value_of_pack_decode le_rfl h
    rwa [← hx] at hval
  rcases decode_cases (sign y) (isNaN_eq_false_iff.1 hy) with ⟨hn, hg⟩ | ⟨hn, hg⟩ | ⟨-, hn, hq, hg⟩
  · have hlt := natAbs_value_lt (x := y) (by rw [hn]; decide)
    rw [hg] at hsum
    exact Or.inl ⟨by omega, hself hsum⟩
  · -- the signs decide
    have hvx : value x = (sign x).apply infiniteUnits := by rw [value, hx, infiniteUnits]
    have hvy : value y = (sign y).apply infiniteUnits := by rw [value, hn, infiniteUnits]
    have htop := infiniteUnits_pos
    rw [hg] at hsum
    cases hs : sign x <;> cases ht : sign y <;> rw [hs, ht] at hsum <;> rw [hs] at hvx hself <;>
      rw [ht] at hvy <;> simp only [Sign.apply] at hvx hvy
    · exact Or.inl ⟨by omega, hself hsum⟩
    · exact Or.inr ⟨by omega, isNaN_of_pack_notANumber hsum⟩
    · exact Or.inr ⟨by omega, isNaN_of_pack_notANumber hsum⟩
    · exact Or.inl ⟨by omega, hself hsum⟩
  · have hlt := natAbs_value_lt hn
    rw [hg] at hsum
    exact Or.inl ⟨by omega, hself hsum⟩

/-- An infinite operand decides a sum that is a number. -/
theorem value_add_eq_left {x y : Float32} (hx : pattern x = infinitePattern)
    (hsum : (x + y).isNaN = false) : value y ≠ -value x ∧ value (x + y) = value x := by
  obtain ⟨-, hy⟩ := isNaN_of_add hsum
  rcases value_add_of_infinite hx hy with ⟨hne, -, hval⟩ | ⟨-, hnan⟩
  · exact ⟨hne, hval⟩
  · exact absurd (hsum.symm.trans hnan) Bool.false_ne_true

theorem value_add_of_ne {x y : Float32} (hx : pattern x = infinitePattern)
    (hy : y.isNaN = false) (hne : value y ≠ -value x) :
    (x + y).isNaN = false ∧ value (x + y) = value x := by
  rcases value_add_of_infinite hx hy with ⟨-, hsum⟩ | ⟨heq, -⟩
  · exact hsum
  · exact absurd heq hne

/-- **A difference of numbers** is a number, unless both are the same infinity. -/
theorem isNaN_sub {x y : Float32} (hx : x.isNaN = false) (hy : y.isNaN = false)
    (h : pattern x = infinitePattern → value y ≠ value x) : (x - y).isNaN = false := by
  have hsub : (x - y).toBits.toBitVec = UnpackedFloat.pack Format.binary32
      (UnpackedFloat.sub Format.binary32 x.toModel.unpack y.toModel.unpack) := rfl
  -- whatever is the word of a pattern is no NaN; the library's result has three such forms
  have hdecode {s : Sign} {n : Nat} (hn : n ≤ infinitePattern)
      (h : (x - y).toBits.toBitVec = UnpackedFloat.pack Format.binary32 (decode s n)) :
      (x - y).isNaN = false := (value_of_pack_decode hn h).1
  have hinf {s : Sign}
      (h : (x - y).toBits.toBitVec = UnpackedFloat.pack Format.binary32 (.infinity s)) :
      (x - y).isNaN = false := hdecode le_rfl (decode_infinitePattern s ▸ h)
  have hzero {s : Sign}
      (h : (x - y).toBits.toBitVec = UnpackedFloat.pack Format.binary32 (.zero s)) :
      (x - y).isNaN = false := hdecode (Nat.zero_le _) h
  rw [unpack_toModel hx, unpack_toModel hy] at hsub
  have hpx := isNaN_eq_false_iff.1 hx
  have hpy := isNaN_eq_false_iff.1 hy
  rcases decode_cases (sign x) hpx with ⟨-, hf⟩ | ⟨hm, hf⟩ | ⟨-, hm, hp, hf⟩
  · rcases decode_cases (sign y) hpy with ⟨-, hg⟩ | ⟨-, hg⟩ | ⟨hn₀, hn, hq, hg⟩
    · -- two zeros: a zero, whatever the signs
      rw [hf, hg, UnpackedFloat.sub] at hsub
      split_ifs at hsub <;> exact hzero hsub
    · rw [hf, hg] at hsub
      exact hinf hsub
    · rw [hf, hg] at hsub
      rw [UnpackedFloat.sub, ← decode_finite (-sign y) hn₀.ne' hn.ne] at hsub
      exact hdecode hn.le hsub
  · rcases decode_cases (sign y) hpy with ⟨-, hg⟩ | ⟨hn, hg⟩ | ⟨-, -, hq, hg⟩
    · rw [hf, hg] at hsub
      exact hinf hsub
    · -- two infinities: not of the same sign
      have hne := h hm
      rw [value, value, hm, hn] at hne
      rw [hf, hg] at hsub
      cases hs : sign x <;> cases ht : sign y <;> rw [hs, ht] at hsub hne
      · exact absurd rfl hne
      · exact hinf hsub
      · exact hinf hsub
      · exact absurd rfl hne
    · rw [hf, hg] at hsub
      exact hinf hsub
  · rcases decode_cases (sign y) hpy with ⟨-, hg⟩ | ⟨-, hg⟩ | ⟨-, -, hq, hg⟩
    · rw [hf, hg] at hsub
      exact hdecode (s := sign x) hm.le (hf ▸ hsub)
    · rw [hf, hg] at hsub
      exact hinf hsub
    · -- two finite numbers: what rounding returns is never a NaN
      have hmin : min ((scale (pattern x) : Int) - 149) (scale (pattern y) - 149)
          = ((min (scale (pattern x)) (scale (pattern y)) : Nat) : Int) - 149 := by omega
      rw [hf, hg, UnpackedFloat.sub, hmin] at hsub
      exact (value_of_pack_normalize _ _ hsub).1

/-! ### Far sides -/

theorem pattern_cases {x : Float32} (h : x.isNaN = false) :
    pattern x = infinitePattern ∨ pattern x < infinitePattern :=
  (isNaN_eq_false_iff.1 h).eq_or_lt

/-- **A sum with a finite number** is a number. -/
theorem isNaN_add_of_isFinite {x y : Float32} (hx : x.isNaN = false) (hy : y.isFinite = true) :
    (x + y).isNaN = false := by
  have hyfin := isFinite_iff.1 hy
  rcases pattern_cases hx with hinf | hfin
  · have hxinf := natAbs_value_of_infinite hinf
    have hylt := natAbs_value_lt hyfin
    exact (value_add_of_ne hinf (isNaN_of_isFinite hy) (by omega)).1
  · exact (value_add hfin hyfin).1

/-- **A sum grows with its first operand.** An edge that is passed by the far side at `x` is passed
by the far side at every later position. -/
theorem lt_add_of_value_le {edge x y w : Float32} (h : edge < x + w) (hy : y.isNaN = false)
    (hle : value x ≤ value y) : edge < y + w := by
  obtain ⟨he, hsum, hlt⟩ := lt_iff.1 h
  obtain ⟨hx, hw⟩ := isNaN_of_add hsum
  have hedge := natAbs_value_le he
  have hxabs := natAbs_value_le hx
  have hyabs := natAbs_value_le hy
  -- infinite numbers add up by rules of their own
  rcases pattern_cases hw with hwinf | hwfin
  · -- the extent is positive infinity, and the position not its opposite
    have hwabs := natAbs_value_of_infinite hwinf
    rw [Binary32.add_comm] at hlt hsum ⊢
    obtain ⟨hne, hval⟩ := value_add_eq_left hwinf hsum
    obtain ⟨hnan, hval'⟩ := value_add_of_ne hwinf hy (by omega)
    exact lt_iff.2 ⟨he, hnan, by omega⟩
  · have hwabs := natAbs_value_lt hwfin
    have hbound := natAbs_value_le hsum
    rcases pattern_cases hy with hyinf | hyfin
    · -- the later position can only be positive infinity
      have hyinf' := natAbs_value_of_infinite hyinf
      obtain ⟨hnan, hval'⟩ := value_add_of_ne hyinf hw (by omega)
      rcases pattern_cases hx with hxinf | hxfin
      · obtain ⟨-, hval⟩ := value_add_eq_left hxinf hsum
        exact lt_iff.2 ⟨he, hnan, by omega⟩
      · have hxlt := natAbs_value_lt hxfin
        exact lt_iff.2 ⟨he, hnan, by omega⟩
    · -- so is the earlier one, because infinity would be passed by nothing
      have hylt := natAbs_value_lt hyfin
      rcases pattern_cases hx with hxinf | hxfin
      · have hxinf' := natAbs_value_of_infinite hxinf
        obtain ⟨-, hval⟩ := value_add_eq_left hxinf hsum
        omega
      · have hval := (value_add hxfin hwfin).2
        obtain ⟨hnan, hval'⟩ := value_add hyfin hwfin
        have hmono := roundValue_mono (Int.add_le_add_right hle (value w))
        exact lt_iff.2 ⟨he, hnan, by omega⟩

theorem lt_add_congr {edge x y w : Float32} (hx : x.isNaN = false) (hy : y.isNaN = false)
    (h : value x = value y) : edge < x + w ↔ edge < y + w :=
  ⟨fun hlt => lt_add_of_value_le hlt hy h.le, fun hlt => lt_add_of_value_le hlt hx h.ge⟩

/-- **Adding a zero** changes nothing but the sign of a zero. -/
theorem value_add_of_beq_zero {x d : Float32} (hx : x.isNaN = false) (hd : (d == 0) = true) :
    (x + d).isNaN = false ∧ value (x + d) = value x := by
  obtain ⟨hdnan, -, hdval⟩ := beq_iff.1 hd
  rw [value_zero] at hdval
  have htop := infiniteUnits_pos
  rcases pattern_cases hx with hinf | hfin
  · have hxinf := natAbs_value_of_infinite hinf
    exact value_add_of_ne hinf hdnan (by omega)
  · have hdfin := (pattern_cases hdnan).resolve_left fun hinf => by
      have := natAbs_value_of_infinite hinf
      omega
    obtain ⟨hnan, hval⟩ := value_add hfin hdfin
    rw [hdval, Int.add_zero, roundValue_value hx] at hval
    exact ⟨hnan, hval⟩

theorem add_zero_lt_iff {x d b : Float32} (hd : (d == 0) = true) : x + d < b ↔ x < b := by
  rw [lt_iff, lt_iff]
  cases hx : x.isNaN
  · obtain ⟨hnan, hval⟩ := value_add_of_beq_zero hx hd
    rw [hnan, hval]
  · rw [isNaN_add_left hx]
    simp

theorem lt_add_zero_add_iff {a x d w : Float32} (hd : (d == 0) = true) :
    a < x + d + w ↔ a < x + w := by
  cases hx : x.isNaN
  · obtain ⟨hnan, hval⟩ := value_add_of_beq_zero hx hd
    exact lt_add_congr hnan hx hval
  · rw [lt_iff, lt_iff, isNaN_add_left hx, isNaN_add_left (isNaN_add_left hx)]
    simp

end Sidescroller.Binary32
