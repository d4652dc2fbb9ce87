import Mathlib.Algebra.Group.Nat.Defs

/-!
# The order of texts is the order of their bytes

Texts are ordered by their code points. Written in UTF-8 they are sequences of bytes, and these are
ordered as well, byte by byte. It is the same order. The first byte of a character tells how many
bytes follow, and it grows with the code point; those that follow are the digits of the code point
in base 64, the high ones first. So of two characters the smaller one has the smaller bytes, and
what comes after them does not matter.

* `leadByte`, `trailBytes` — the first byte of a character, and those that follow;
* `trailBytes_append_lt` — the induction on the digits;
* `encode_append_lt` — one character;
* `bytes_lt_iff` — texts.
-/

namespace Sidescroller.Text

variable {m n k : Nat} {c d : Char} {a b : String}

/-- **The bytes** of a text in UTF-8. -/
def bytes (text : String) : List UInt8 := text.toUTF8.data.toList

theorem bytes_eq_flatMap (text : String) :
    bytes text = text.toList.flatMap String.utf8EncodeChar := by
  rw [bytes, String.toUTF8_eq_toByteArray, ← String.ofList_toList (s := text),
    String.toByteArray_ofList, List.utf8Encode, List.data_toByteArray, String.ofList_toList]

theorem ofNat_lt_ofNat (hn : n < 256) (h : m < n) : UInt8.ofNat m < UInt8.ofNat n := by
  rw [UInt8.lt_iff_toNat_lt, UInt8.toNat_ofNat_of_lt' hn,
    UInt8.toNat_ofNat_of_lt' (Nat.lt_trans h hn)]
  exact h

/-! ### Characters -/

/-- The number of bytes that follow the first byte of a code point. -/
def trailCount (n : Nat) : Nat :=
  if n ≤ 127 then 0 else if n ≤ 2047 then 1 else if n ≤ 65535 then 2 else 3

/-- The first byte of a code point. -/
def leadByte (n : Nat) : Nat :=
  if n ≤ 127 then n
  else if n ≤ 2047 then n / 64 + 192
  else if n ≤ 65535 then n / 4096 + 224
  else n / 262144 + 240

/-- The last `k` digits of a code point in base 64, as bytes. -/
def trailBytes : Nat → Nat → List UInt8
  | 0, _ => []
  | k + 1, n => UInt8.ofNat (n / 64 ^ k % 64 + 128) :: trailBytes k n

theorem toNat_lt (c : Char) : c.val.toNat < 0x110000 := by
  rcases c.valid with h | h <;> omega

/-- A character is written with its first byte and those that follow. -/
theorem encode_eq (c : Char) :
    String.utf8EncodeChar c =
      UInt8.ofNat (leadByte c.val.toNat) :: trailBytes (trailCount c.val.toNat) c.val.toNat := by
  have hc := toNat_lt c
  unfold String.utf8EncodeChar leadByte trailCount
  generalize c.val.toNat = n at hc
  dsimp only
  -- the first digit is small enough for the place that the encoding leaves for it
  have htwo : n ≤ 2047 → n / 64 % 32 = n / 64 := by omega
  have hthree : n ≤ 65535 → n / 4096 % 16 = n / 4096 := by omega
  have hfour : n / 262144 % 8 = n / 262144 := by omega
  split
  · rfl
  split
  next _ h =>
    rw [htwo h]
    simp [trailBytes]
  split
  next _ _ h =>
    rw [hthree h]
    simp [trailBytes]
  · rw [hfour]
    simp [trailBytes]

/-- **Digits** of two numbers that agree above them are ordered as the numbers are. -/
theorem trailBytes_append_lt (h : m < n) (hhigh : m / 64 ^ k = n / 64 ^ k) (r s : List UInt8) :
    trailBytes k m ++ r < trailBytes k n ++ s := by
  induction k with
  | zero =>
    simp only [Nat.pow_zero, Nat.div_one] at hhigh
    omega
  | succ k ih =>
    rw [Nat.pow_succ, ← Nat.div_div_eq_div_mul, ← Nat.div_div_eq_div_mul] at hhigh
    have hle : m / 64 ^ k ≤ n / 64 ^ k := Nat.div_le_div_right (Nat.le_of_lt h)
    rw [trailBytes, trailBytes, List.cons_append, List.cons_append, List.cons_lt_cons_iff]
    rcases Nat.eq_or_lt_of_le hle with heq | hlt
    · -- this digit is the same, and a later one is not
      exact Or.inr ⟨by rw [heq], ih heq⟩
    · exact Or.inl (ofNat_lt_ofNat (by omega) (by omega))

theorem leadByte_lt (h : n < 0x110000) : leadByte n < 256 := by
  unfold leadByte
  split
  · omega
  split
  · omega
  split <;> omega

/-- How many bytes follow, and what is left for the first one. -/
theorem leadByte_cases (n : Nat) :
    n ≤ 127 ∧ leadByte n = n ∧ trailCount n = 0 ∨
    127 < n ∧ n ≤ 2047 ∧ leadByte n = n / 64 + 192 ∧ trailCount n = 1 ∨
    2047 < n ∧ n ≤ 65535 ∧ leadByte n = n / 4096 + 224 ∧ trailCount n = 2 ∨
    65535 < n ∧ leadByte n = n / 262144 + 240 ∧ trailCount n = 3 := by
  unfold leadByte trailCount
  split
  · omega
  split
  · omega
  split <;> omega

/-- The first byte grows with the code point. Where it stays the same, so does the number of bytes
that follow, and the code points differ in these only. -/
theorem leadByte_lt_or_eq (h : m < n) :
    leadByte m < leadByte n ∨
      leadByte m = leadByte n ∧ trailCount m = trailCount n ∧
        m / 64 ^ trailCount n = n / 64 ^ trailCount n := by
  rcases leadByte_cases m with
    ⟨_, hm, hm'⟩ | ⟨_, _, hm, hm'⟩ | ⟨_, _, hm, hm'⟩ | ⟨_, hm, hm'⟩ <;>
  rcases leadByte_cases n with
    ⟨_, hn, hn'⟩ | ⟨_, _, hn, hn'⟩ | ⟨_, _, hn, hn'⟩ | ⟨_, hn, hn'⟩ <;>
  rw [hm, hm', hn, hn'] <;> omega

/-- **The smaller character** has the smaller bytes, whatever follows. -/
theorem encode_append_lt (h : c < d) (r s : List UInt8) :
    String.utf8EncodeChar c ++ r < String.utf8EncodeChar d ++ s := by
  have hlt : c.val.toNat < d.val.toNat := UInt32.lt_iff_toNat_lt.1 h
  rw [encode_eq, encode_eq, List.cons_append, List.cons_append, List.cons_lt_cons_iff]
  rcases leadByte_lt_or_eq hlt with hlead | ⟨hlead, hcount, hhigh⟩
  · exact Or.inl (ofNat_lt_ofNat (leadByte_lt (toNat_lt d)) hlead)
  · rw [hlead, hcount]
    exact Or.inr ⟨rfl, trailBytes_append_lt hlt hhigh r s⟩

/-! ### Texts -/

theorem flatMap_encode_lt {cs ds : List Char} (h : cs < ds) :
    cs.flatMap String.utf8EncodeChar < ds.flatMap String.utf8EncodeChar := by
  induction h with
  | @nil d ds =>
    rw [List.flatMap_nil, List.flatMap_cons, encode_eq]
    exact List.nil_lt_cons _ _
  | @rel c cs d ds h =>
    rw [List.flatMap_cons, List.flatMap_cons]
    exact encode_append_lt h _ _
  | @cons c cs ds h ih =>
    rw [List.flatMap_cons, List.flatMap_cons]
    exact List.append_left_lt ih

theorem bytes_lt (h : a < b) : bytes a < bytes b := by
  rw [bytes_eq_flatMap, bytes_eq_flatMap]
  exact flatMap_encode_lt (String.lt_iff.1 h)

/-- **The order of texts** is the order of their bytes. -/
theorem bytes_lt_iff : bytes a < bytes b ↔ a < b := by
  refine ⟨fun h => ?_, bytes_lt⟩
  apply Classical.byContradiction
  intro hnot
  by_cases hle : b < a
  · exact List.lt_asymm h (bytes_lt hle)
  · obtain rfl := String.le_antisymm hle hnot
    exact List.lt_irrefl _ h

/-- Texts with the same bytes are the same. -/
theorem bytes_eq_iff : bytes a = bytes b ↔ a = b := by
  refine ⟨fun h => ?_, fun h => by rw [h]⟩
  apply String.le_antisymm
  · intro hlt
    exact List.lt_irrefl _ (h ▸ bytes_lt hlt)
  · intro hlt
    exact List.lt_irrefl _ (h ▸ bytes_lt hlt)

end Sidescroller.Text
