import Sidescroller.Binary32.Written
import Sidescroller.Document.Datum

/-!
# Writing JSON

`Json.pretty` writes a datum with one element or entry a line, two blanks for each level. Empty
lists and tables stay on their line. What has no value is written as null.
-/

namespace Sidescroller.Json

/-- A character within a string. Quotes, backslashes and control characters are escaped. -/
def escaped (c : Char) : String :=
  match c with
  | '"' => "\\\""
  | '\\' => "\\\\"
  | '\x08' => "\\b"
  | '\x0c' => "\\f"
  | '\n' => "\\n"
  | '\r' => "\\r"
  | '\t' => "\\t"
  | c =>
    if c < ' ' then
      let digits := Nat.toDigits 16 c.toNat
      "\\u" ++ String.ofList (List.replicate (4 - digits.length) '0' ++ digits)
    else String.singleton c

/-- A string with its quotes. -/
def quoted (text : String) : String := "\"" ++ String.join (text.toList.map escaped) ++ "\""

/-- A new line at a level. -/
def lineAt (level : Nat) : String := "\n" ++ String.ofList (List.replicate (2 * level) ' ')

mutual

/-- A datum that begins at a level. -/
def prettyAt (level : Nat) : Datum → String
  | .null | .unreadable => "null"
  | .boolean value => if value then "true" else "false"
  | .integer value => toString value
  | .float value => Binary32.json value
  | .text value => quoted value
  | .list [] => "[]"
  | .list (item :: items) =>
    "[" ++ lineAt (level + 1) ++ prettyAt (level + 1) item ++ prettyItems (level + 1) items
      ++ lineAt level ++ "]"
  | .table [] => "\x7b\x7d"
  | .table ((key, datum) :: entries) =>
    "\x7b" ++ lineAt (level + 1) ++ quoted key ++ ": " ++ prettyAt (level + 1) datum
      ++ prettyEntries (level + 1) entries ++ lineAt level ++ "\x7d"

/-- The further elements of a list. -/
def prettyItems (level : Nat) : List Datum → String
  | [] => ""
  | item :: items => "," ++ lineAt level ++ prettyAt level item ++ prettyItems level items

/-- The further entries of a table. -/
def prettyEntries (level : Nat) : List (String × Datum) → String
  | [] => ""
  | (key, datum) :: entries =>
    "," ++ lineAt level ++ quoted key ++ ": " ++ prettyAt level datum
      ++ prettyEntries level entries

end

/-- A datum as a JSON text. -/
def pretty (datum : Datum) : String := prettyAt 0 datum

end Sidescroller.Json
