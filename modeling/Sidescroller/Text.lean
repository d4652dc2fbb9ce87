/-!
# Texts

What is done to texts, character by character.

* `Text.trim` — removes the blanks at the ends, which are the characters with the Unicode property
  White_Space;
* `Text.number?` — reads a whole number from digits, in any base up to sixteen;
* `Text.address` — fills in the name of the student. Authored texts address the student by a
  placeholder, the word "name" in braces. Filling it in goes through the text once from left to
  right; what is put in is not looked at again.
-/

namespace Sidescroller.Text

/-! ### Blanks -/

/-- The Unicode property White_Space. -/
def isBlank (c : Char) : Bool :=
  let n := c.toNat
  (0x09 ≤ n && n ≤ 0x0D) || n == 0x20 || n == 0x85 || n == 0xA0 || n == 0x1680
    || (0x2000 ≤ n && n ≤ 0x200A) || n == 0x2028 || n == 0x2029 || n == 0x202F || n == 0x205F
    || n == 0x3000

/-- The text without the blanks at its two ends. -/
def trim (cs : List Char) : List Char :=
  ((cs.dropWhile isBlank).reverse.dropWhile isBlank).reverse

/-! ### Digits -/

/-- The value of a hexadecimal digit. -/
def hexValue? (c : Char) : Option Nat :=
  if '0' ≤ c ∧ c ≤ '9' then some (c.toNat - '0'.toNat)
  else if 'a' ≤ c ∧ c ≤ 'f' then some (c.toNat - 'a'.toNat + 10)
  else if 'A' ≤ c ∧ c ≤ 'F' then some (c.toNat - 'A'.toNat + 10)
  else none

/-- The value of a digit in a base up to sixteen. -/
def digitValue? (base : Nat) (c : Char) : Option Nat := (hexValue? c).filter (· < base)

/-- Whether the character is a decimal digit. -/
def isDigit (c : Char) : Bool := '0' ≤ c && c ≤ '9'

/-- The number that digits stand for. Fails on a character that is not a digit of the base. -/
def number? (base : Nat) (digits : List Char) : Option Nat :=
  digits.foldlM (fun value c => (digitValue? base c).map (value * base + ·)) 0

/-- The character of a code point. There is none for a surrogate or beyond the last plane. -/
def ofCodePoint? (n : Nat) : Option Char := if n.isValidChar then some (Char.ofNat n) else none

/-! ### The name placeholder -/

/-- The placeholder for the student's name. -/
def placeholder : List Char := ['\x7b', 'n', 'a', 'm', 'e', '\x7d']

/-- The text with `name` in place of every placeholder. -/
def fillIn (name : List Char) : List Char → List Char
  | '\x7b' :: 'n' :: 'a' :: 'm' :: 'e' :: '\x7d' :: rest => name ++ fillIn name rest
  | c :: rest => c :: fillIn name rest
  | [] => []

/-- The text with `name` in place of every placeholder. -/
def address (name text : String) : String := String.ofList (fillIn name.toList text.toList)

end Sidescroller.Text
