import Sidescroller.Text

/-!
# Dates and times of TOML

A moment is a date, a time, or both, perhaps with its distance from universal time. Nothing in this
library has to do with dates; a document may hold some nevertheless, and they have to be well
formed.

`Moment.read?` takes the whole of a word for a moment, `Moment.text` writes it in the one form that
all spellings of a moment share.
-/

namespace Sidescroller.Toml

/-- A day of the calendar. -/
structure Date where
  year : Nat
  /-- Month, from 1. -/
  month : Nat
  /-- Day, from 1. -/
  day : Nat
  deriving DecidableEq

/-- A time of day. -/
structure Clock where
  hour : Nat
  minute : Nat
  /-- Seconds; a minute with a leap second has 61. -/
  second : Nat
  /-- Billionths of a second. -/
  nanosecond : Nat
  deriving DecidableEq

/-- A distance from universal time. -/
inductive Offset where
  /-- None. -/
  | zulu
  /-- So many minutes ahead. -/
  | minutes (ahead : Int)
  deriving DecidableEq

/-- A date, a time, or both. -/
inductive Moment where
  | date (date : Date)
  | clock (clock : Clock)
  | dateTime (date : Date) (clock : Clock) (offset : Option Offset)
  deriving DecidableEq

namespace Moment

/-- The number of days of a month. -/
def daysIn (year month : Nat) : Nat :=
  if month = 2 then
    if year % 4 = 0 ∧ (year % 100 ≠ 0 ∨ year % 400 = 0) then 29 else 28
  else if month = 4 ∨ month = 6 ∨ month = 9 ∨ month = 11 then 30
  else 31

/-- The number of two digits, if it is not beyond `last`. -/
def twoDigits? (last : Nat) (tens ones : Char) : Option Nat :=
  (Text.number? 10 [tens, ones]).filter (· ≤ last)

/-- Reads a date, and what follows it. -/
def date? : List Char → Option (Date × List Char)
  | y1 :: y2 :: y3 :: y4 :: '-' :: m1 :: m2 :: '-' :: d1 :: d2 :: rest => do
    let year ← Text.number? 10 [y1, y2, y3, y4]
    let month ← twoDigits? 12 m1 m2
    let day ← twoDigits? (daysIn year month) d1 d2
    if month = 0 ∨ day = 0 then failure
    return (⟨year, month, day⟩, rest)
  | _ => none

/-- The fraction of a second in billionths; further digits are dropped. -/
def nanoseconds? (digits : List Char) : Option Nat :=
  let digits := digits.take 9
  (Text.number? 10 digits).map (· * Nat.pow 10 (9 - digits.length))

/-- Reads a time, and what follows it. -/
def clock? : List Char → Option (Clock × List Char)
  | h1 :: h2 :: ':' :: m1 :: m2 :: ':' :: s1 :: s2 :: rest => do
    let hour ← twoDigits? 23 h1 h2
    let minute ← twoDigits? 59 m1 m2
    let second ← twoDigits? 60 s1 s2
    match rest with
    | '.' :: rest =>
      let digits := rest.takeWhile Text.isDigit
      if digits.isEmpty then failure
      return (⟨hour, minute, second, ← nanoseconds? digits⟩, rest.dropWhile Text.isDigit)
    | rest => return (⟨hour, minute, second, 0⟩, rest)
  | _ => none

/-- The whole of `cs` as an offset. -/
def offset? : List Char → Option (Option Offset)
  | [] => some none
  | ['Z'] | ['z'] => some (some .zulu)
  | [sign, h1, h2, ':', m1, m2] => do
    let hours ← twoDigits? 23 h1 h2
    let minutes ← twoDigits? 59 m1 m2
    let total : Int := hours * 60 + minutes
    if sign = '+' then return some (.minutes total)
    else if sign = '-' then return some (.minutes (-total))
    else failure
  | _ => none

/-- The whole of `cs` as a moment. Between date and time there is a blank or the letter T. -/
def read? (cs : List Char) : Option Moment :=
  match date? cs with
  | some (day, []) => some (.date day)
  | some (day, separator :: rest) => do
    if separator ≠ 'T' ∧ separator ≠ 't' ∧ separator ≠ ' ' then failure
    let (time, rest) ← clock? rest
    return .dateTime day time (← offset? rest)
  | none => do
    let (time, rest) ← clock? cs
    if rest.isEmpty then return .clock time else failure

/-- A number with at least `width` digits. -/
def padded (width n : Nat) : String :=
  let digits := Nat.toDigits 10 n
  String.ofList (List.replicate (width - digits.length) '0' ++ digits)

/-- The form of a date. -/
def dateText (date : Date) : String :=
  padded 4 date.year ++ "-" ++ padded 2 date.month ++ "-" ++ padded 2 date.day

/-- The form of a time. A fraction of a second has no zeros at its end. -/
def clockText (clock : Clock) : String :=
  let fraction :=
    if clock.nanosecond = 0 then ""
    else
      let digits := (padded 9 clock.nanosecond).toList.reverse.dropWhile (· == '0')
      "." ++ String.ofList digits.reverse
  padded 2 clock.hour ++ ":" ++ padded 2 clock.minute ++ ":" ++ padded 2 clock.second ++ fraction

/-- The form of an offset. -/
def offsetText : Option Offset → String
  | none => ""
  | some .zulu => "Z"
  | some (.minutes ahead) =>
    let minutes := ahead.natAbs
    (if ahead < 0 then "-" else "+") ++ padded 2 (minutes / 60) ++ ":" ++ padded 2 (minutes % 60)

/-- The form of a moment. -/
def text : Moment → String
  | date day => dateText day
  | clock time => clockText time
  | dateTime day time offset => dateText day ++ "T" ++ clockText time ++ offsetText offset

end Moment

end Sidescroller.Toml
