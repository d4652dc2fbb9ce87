import Sidescroller.Binary32.Decimal
import Sidescroller.Document.Datum
import Sidescroller.Text

/-!
# Tokens of JSON

A JSON text is a sequence of tokens with blanks between them. A token is complete: numbers have been
converted and escapes resolved.

Two kinds of token are well formed and still have no value: a number beyond single precision, and a
string in which one half of a surrogate pair stands alone.
-/

namespace Sidescroller.Json

/-- A token of JSON. -/
inductive Token where
  /-- `[` -/
  | openList
  /-- `]` -/
  | closeList
  /-- An opening brace. -/
  | openTable
  /-- A closing brace. -/
  | closeTable
  /-- `:` -/
  | colon
  /-- `,` -/
  | comma
  /-- A string, unless it has no value. -/
  | string (value : Option String)
  /-- A number, a truth value, or null. -/
  | scalar (value : Datum)

/-- The tokens of one character. -/
def punctuation? (c : Char) : Option Token :=
  match c with
  | '[' => some .openList
  | ']' => some .closeList
  | '\x7b' => some .openTable
  | '\x7d' => some .closeTable
  | ':' => some .colon
  | ',' => some .comma
  | _ => none

/-- The blanks of JSON. -/
def isBlank (c : Char) : Bool := c == ' ' || c == '\t' || c == '\n' || c == '\r'

/-! ### Strings -/

/-- The character that a backslash and `c` stand for. -/
def escape? (c : Char) : Option Char :=
  match c with
  | '"' => some '"'
  | '\\' => some '\\'
  | '/' => some '/'
  | 'b' => some '\x08'
  | 'f' => some '\x0c'
  | 'n' => some '\n'
  | 'r' => some '\r'
  | 't' => some '\t'
  | _ => none

/-- The code units of a string after its opening quote, and what follows the closing one. An escape
with four digits gives one unit of UTF-16; any other character gives its code point. -/
def scanString : List Char → Option (List Nat × List Char)
  | [] => none
  | '"' :: rest => some ([], rest)
  | '\\' :: 'u' :: a :: b :: c :: d :: rest => do
    let unit ← Text.number? 16 [a, b, c, d]
    let (units, rest) ← scanString rest
    return (unit :: units, rest)
  | '\\' :: c :: rest => do
    let c ← escape? c
    let (units, rest) ← scanString rest
    return (c.toNat :: units, rest)
  | c :: rest =>
    -- Control characters have to be escaped.
    if c < ' ' then none
    else do
      let (units, rest) ← scanString rest
      return (c.toNat :: units, rest)

/-- Whether a code unit is the first half of a surrogate pair. -/
def isHigh (unit : Nat) : Bool := 0xD800 ≤ unit && unit < 0xDC00

/-- Whether a code unit is the second half of a surrogate pair. -/
def isLow (unit : Nat) : Bool := 0xDC00 ≤ unit && unit < 0xE000

/-- The characters of code units: surrogate pairs are joined, and a lone half has no value. -/
def joinPairs : List Nat → Option (List Char)
  | [] => some []
  | [unit] => if isHigh unit || isLow unit then none else some [Char.ofNat unit]
  | unit :: low :: rest =>
    if isHigh unit && isLow low then
      (joinPairs rest).map (Char.ofNat (0x10000 + (unit - 0xD800) * 0x400 + (low - 0xDC00)) :: ·)
    else if isHigh unit || isLow unit then none
    else (joinPairs (low :: rest)).map (Char.ofNat unit :: ·)

theorem length_of_scanString {s : List Char} {units : List Nat} {rest : List Char}
    (h : scanString s = some (units, rest)) : rest.length < s.length := by
  fun_induction scanString s generalizing units rest with
  | case1 => simp at h
  | case2 => simp_all
  | case3 a b c d s ih =>
    obtain ⟨_, _, h⟩ := Option.bind_eq_some_iff.1 h
    obtain ⟨⟨_, _⟩, hs, h⟩ := Option.bind_eq_some_iff.1 h
    obtain ⟨_, rfl⟩ := Prod.mk.inj (Option.some.inj h)
    have := ih hs
    simp only [List.length_cons]
    omega
  | case4 c s _ ih =>
    obtain ⟨_, _, h⟩ := Option.bind_eq_some_iff.1 h
    obtain ⟨⟨_, _⟩, hs, h⟩ := Option.bind_eq_some_iff.1 h
    obtain ⟨_, rfl⟩ := Prod.mk.inj (Option.some.inj h)
    have := ih hs
    simp only [List.length_cons]
    omega
  | case5 => simp at h
  | case6 c s _ _ _ _ ih =>
    obtain ⟨⟨_, _⟩, hs, h⟩ := Option.bind_eq_some_iff.1 h
    obtain ⟨_, rfl⟩ := Prod.mk.inj (Option.some.inj h)
    have := ih hs
    simp only [List.length_cons]
    omega

/-! ### Numbers -/

/-- Whether a number can contain the character. -/
def isNumeric (c : Char) : Bool :=
  Text.isDigit c || c == '-' || c == '+' || c == '.' || c == 'e' || c == 'E'

/-- The digits at the beginning, of which there is at least one, and what follows them. -/
def digits? (cs : List Char) : Option (List Char × List Char) :=
  match cs.takeWhile Text.isDigit with
  | [] => none
  | digits => some (digits, cs.dropWhile Text.isDigit)

/-- The digits after a point, if there is one. -/
def fraction? : List Char → Option (List Char × List Char)
  | '.' :: cs => digits? cs
  | cs => some ([], cs)

/-- The exponent, if there is one. -/
def exponent? : List Char → Option (Option Int × List Char)
  | c :: cs =>
    if c == 'e' || c == 'E' then do
      let (negative, cs) := match cs with
        | '-' :: cs => (true, cs)
        | '+' :: cs => (false, cs)
        | cs => (false, cs)
      let (digits, cs) ← digits? cs
      let value ← Text.number? 10 digits
      return (some (if negative then -value else value), cs)
    else some (none, c :: cs)
  | [] => some (none, [])

/-- How many digits of a number are read. Half way between two adjacent binary32 numbers there is
always a number with no more digits than these, so the rest can decide nothing but whether a number
lies above such a middle or on it. It is taken to lie above. -/
def digitLimit : Nat := 113

/-- The value of a number with a fraction or an exponent: it is rounded to single precision, and
there is none if it is beyond that. -/
def ofDecimal (number : Binary32.Decimal) : Datum :=
  let value := (number.cutAfter digitLimit).toSingle
  if value.isInf then .unreadable else .float value

/-- The value of a whole number without an exponent. It is an integer if it fits into 64 bits. A
negative zero, and what is below all integers while its digits still fit, is rounded by way of
double precision; what is larger is rounded once. -/
def ofWhole (number : Binary32.Decimal) : Datum :=
  let magnitude := number.mantissa
  if UInt64.size ≤ magnitude then ofDecimal number
  else if !number.negative then .integer magnitude
  else if 0 < magnitude ∧ magnitude ≤ 0x8000000000000000 then .integer (-magnitude)
  else .float number.toSingleByDouble

/-- The digits without the zeros at the end. -/
def trimZeros (digits : List Char) : List Char := (digits.reverse.dropWhile (· == '0')).reverse

/-- The value of a number. A leading zero stands alone. Zeros at the end of a fraction are no
digits of the number; those at the end of a whole part are. -/
def numberToken? (cs : List Char) : Option Datum := do
  let (negative, cs) := match cs with
    | '-' :: cs => (true, cs)
    | cs => (false, cs)
  let (whole, cs) ← digits? cs
  if whole.head? = some '0' ∧ 1 < whole.length then failure
  let (fraction, tail) ← fraction? cs
  let (exponent, rest) ← exponent? tail
  if !rest.isEmpty then failure
  let decimals := trimZeros fraction
  let mantissa ← Text.number? 10 (whole ++ decimals)
  let number : Binary32.Decimal := ⟨negative, mantissa, exponent.getD 0 - decimals.length⟩
  return if fraction.isEmpty ∧ exponent.isNone then ofWhole number else ofDecimal number

/-! ### Tokens -/

/-- The value of a word. -/
def word? (cs : List Char) : Option Datum :=
  if cs = ['t', 'r', 'u', 'e'] then some (.boolean true)
  else if cs = ['f', 'a', 'l', 's', 'e'] then some (.boolean false)
  else if cs = ['n', 'u', 'l', 'l'] then some .null
  else none

/-- The tokens of a text. Numbers and words extend as far as they can. -/
def tokens? (s : List Char) : Option (List Token) :=
  match s with
  | [] => some []
  | c :: cs =>
    if isBlank c then tokens? cs
    else match punctuation? c with
      | some token => (tokens? cs).map (token :: ·)
      | none =>
        if c = '"' then
          match h : scanString cs with
          | none => none
          | some (units, rest) =>
            have := length_of_scanString h
            (tokens? rest).map (.string ((joinPairs units).map String.ofList) :: ·)
        -- An `e` belongs to a number only further inside.
        else if isNumeric c && c != 'e' && c != 'E' then
          have := (List.dropWhile_sublist (l := cs) isNumeric).length_le
          match numberToken? (c :: cs.takeWhile isNumeric) with
          | none => none
          | some value => (tokens? (cs.dropWhile isNumeric)).map (.scalar value :: ·)
        else
          have := (List.dropWhile_sublist (l := cs) Char.isAlpha).length_le
          match word? (c :: cs.takeWhile Char.isAlpha) with
          | none => none
          | some value => (tokens? (cs.dropWhile Char.isAlpha)).map (.scalar value :: ·)
termination_by s.length
decreasing_by all_goals simp_all; try omega

end Sidescroller.Json
