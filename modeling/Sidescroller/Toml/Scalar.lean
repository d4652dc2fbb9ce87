import Sidescroller.Binary32.Decimal
import Sidescroller.Document.Datum
import Sidescroller.Toml.Moment

/-!
# Words of TOML

A value that is neither quoted nor bracketed is a word: a truth value, a number, or a date. Words
extend as far as they can, so that `scalar?` has to account for a whole word.

Whole numbers have 64 bits. A number with a fraction or an exponent is rounded to double precision
first. One that is too large is refused, and one that is too small in the negative direction becomes
negative infinity.
-/

namespace Sidescroller.Toml

/-- Digits without the underscores between them. Fails if an underscore does not stand between two
digits. -/
def ungroup? (isDigit : Char → Bool) : List Char → Option (List Char)
  | [] => none
  | [c] => if isDigit c then some [c] else none
  | c :: '_' :: rest => if isDigit c then (ungroup? isDigit rest).map (c :: ·) else none
  | c :: rest => if isDigit c then (ungroup? isDigit rest).map (c :: ·) else none

/-- The digits of a decimal whole number. A leading zero stands alone. -/
def wholeDigits? (cs : List Char) : Option (List Char) :=
  match cs with
  | '0' :: _ :: _ => none
  | cs => ungroup? Text.isDigit cs

/-- Whether there is a minus sign, and the characters after the sign. -/
def splitSign : List Char → Bool × List Char
  | '-' :: cs => (true, cs)
  | '+' :: cs => (false, cs)
  | cs => (false, cs)

/-- A whole number with a sign, if it fits into 64 bits. -/
def signed? (negative : Bool) (magnitude : Nat) : Option Datum :=
  if negative then if magnitude ≤ 0x8000000000000000 then some (.integer (-magnitude)) else none
  else if magnitude < 0x8000000000000000 then some (.integer magnitude) else none

/-- A decimal whole number. -/
def decimal? (cs : List Char) : Option Datum := do
  let (negative, cs) := splitSign cs
  signed? negative (← Text.number? 10 (← wholeDigits? cs))

/-- A whole number in another base, without its mark. -/
def based? (base : Nat) (cs : List Char) : Option Datum := do
  let isDigit (c : Char) := (Text.digitValue? base c).isSome
  signed? false (← Text.number? base (← ungroup? isDigit cs))

def integer? : List Char → Option Datum
  | '0' :: 'x' :: cs => based? 16 cs
  | '0' :: 'o' :: cs => based? 8 cs
  | '0' :: 'b' :: cs => based? 2 cs
  | cs => decimal? cs

/-- Whether the character begins an exponent. -/
def isExponentMark (c : Char) : Bool := c == 'e' || c == 'E'

/-- The value of an exponent, given with its mark; zero if there is none. -/
def exponent? : List Char → Option Int
  | [] => some 0
  | _ :: cs => do
    let (negative, cs) := splitSign cs
    let value ← Text.number? 10 (← ungroup? Text.isDigit cs)
    return if negative then -value else value

/-- A number with a fraction or an exponent. -/
def fractional? (cs : List Char) : Option Datum := do
  -- Without either mark it would have been a whole number.
  if !cs.any fun c => c == '.' || isExponentMark c then failure
  let (negative, cs) := splitSign cs
  let body := cs.takeWhile (!isExponentMark ·)
  let exponent ← exponent? (cs.dropWhile (!isExponentMark ·))
  let whole ← wholeDigits? (body.takeWhile (· != '.'))
  let fraction ← match body.dropWhile (· != '.') with
    | [] => some []
    | _ :: cs => ungroup? Text.isDigit cs
  let mantissa ← Text.number? 10 (whole ++ fraction)
  let number : Binary32.Decimal := ⟨negative, mantissa, exponent - fraction.length⟩
  -- Only the positive direction refuses what is too large.
  if number.overflows64 && !negative then failure
  return .float number.toSingleByDouble

/-- Infinity and NaN, with or without a sign. -/
def special? (cs : List Char) : Option Datum :=
  let (negative, cs) := splitSign cs
  if cs = ['i', 'n', 'f'] then
    some (.float (Float32.ofBits (if negative then 0xff800000 else 0x7f800000)))
  else if cs = ['n', 'a', 'n'] then some (.float (Float32.ofBits 0x7fc00000))
  else none

/-- The key of the only entry of the table that a moment stands for. -/
def momentKey : String := "$__toml_private_datetime"

/-- A moment, as a table with its text as the only entry. -/
def moment? (cs : List Char) : Option Datum :=
  (Moment.read? cs).map fun moment => .table [(momentKey, .text moment.text)]

/-- The whole of a word. -/
def scalar? (cs : List Char) : Option Datum :=
  if cs = ['t', 'r', 'u', 'e'] then some (.boolean true)
  else if cs = ['f', 'a', 'l', 's', 'e'] then some (.boolean false)
  else moment? cs <|> special? cs <|> integer? cs <|> fractional? cs

end Sidescroller.Toml
