/-!
# Data of a document

What a document says, whatever it is written in. Tables keep their entries in the order in which
they were written; numbers with a fraction or an exponent are in single precision, as everything in
this library is.

The readers here take a datum for a value of one kind and fail on any other kind.
-/

namespace Sidescroller

/-- A piece of data in a document. -/
inductive Datum where
  /-- Nothing. -/
  | null
  | boolean (value : Bool)
  | integer (value : Int)
  /-- A number with a fraction or an exponent. -/
  | float (value : Float32)
  | text (value : String)
  | list (items : List Datum)
  | table (entries : List (String × Datum))
  /-- Something that is well formed and has no value, such as a number that is too large. It can be
  skipped, but not read. -/
  | unreadable
  deriving Inhabited

namespace Datum

/-- A text, or nothing. -/
def ofOption : Option String → Datum
  | none => null
  | some value => text value

/-- A list of texts. -/
def ofTexts (values : List String) : Datum := list (values.map text)

/-- Reads a truth value. -/
def boolean? : Datum → Option Bool
  | boolean value => some value
  | _ => none

def text? : Datum → Option String
  | text value => some value
  | _ => none

/-- Reads a number. A whole number is rounded to the nearest. -/
def float? : Datum → Option Float32
  | float value => some value
  | integer value => some (Float32.ofInt value)
  | _ => none

/-- Reads a whole number that is not negative and less than `bound`. -/
def natBelow? (bound : Nat) : Datum → Option Nat
  | integer value => if 0 ≤ value ∧ value < bound then some value.toNat else none
  | _ => none

def byte? (datum : Datum) : Option UInt8 := (datum.natBelow? UInt8.size).map UInt8.ofNat

/-- Reads a 64-bit number. -/
def word? (datum : Datum) : Option UInt64 := (datum.natBelow? UInt64.size).map UInt64.ofNat

/-- Reads something or nothing. -/
def optional? {α : Type} (read : Datum → Option α) : Datum → Option (Option α)
  | null => some none
  | datum => (read datum).map some

/-- Reads a list of anything that `read` reads. -/
def list? {α : Type} (read : Datum → Option α) : Datum → Option (List α)
  | list items => items.mapM read
  | _ => none

/-- Reads a table of texts. -/
def textTable? : Datum → Option (List (String × String))
  | table entries => entries.mapM fun (key, value) => value.text?.map (key, ·)
  | _ => none

end Datum

end Sidescroller
