import Sidescroller.Json.Token

/-!
# Reading JSON

`Json.read?` is the datum that a JSON text describes. A machine takes one token after the other; its
state is what has to come next and the lists and tables that are open. There is no limit to how deep
they may be nested.

A table with a key that has no value is `Datum.unreadable` as a whole.
-/

namespace Sidescroller.Json

/-- A list or table that is open. What it holds is kept in reverse order. -/
inductive Frame where
  | list (items : List Datum)
  | table (entries : List (Option String × Datum))
  /-- A table, and a key that waits for its datum. -/
  | entry (entries : List (Option String × Datum)) (key : Option String)

/-- What has to come next. -/
inductive Expected where
  | datum
  /-- A datum, or the end of the list. -/
  | datumOrEnd
  | key
  /-- A key, or the end of the table. -/
  | keyOrEnd
  | colon
  /-- A comma, or the end of the list or table. -/
  | separator
  /-- Nothing: this was the datum. -/
  | done (datum : Datum)

/-- The state of reading. -/
structure Reader where
  /-- What has to come next. -/
  expected : Expected
  /-- What is open, innermost first. -/
  frames : List Frame

namespace Reader

/-- Before the first token. -/
def start : Reader := ⟨.datum, []⟩

/-- The table of some entries, in reverse order. -/
def closeTable (entries : List (Option String × Datum)) : Datum :=
  -- One key without a value spoils the whole table.
  match entries.reverse.mapM fun (key, datum) => key.map (·, datum) with
  | none => .unreadable
  | some entries => .table entries

/-- A datum is complete: it goes into what is open, or it was all. -/
def complete (datum : Datum) : List Frame → Option Reader
  | [] => some ⟨.done datum, []⟩
  | .list items :: frames => some ⟨.separator, .list (datum :: items) :: frames⟩
  | .entry entries key :: frames =>
    some ⟨.separator, .table ((key, datum) :: entries) :: frames⟩
  | .table _ :: _ => none

/-- Takes a token where a datum has to come. -/
def takeDatum (frames : List Frame) : Token → Option Reader
  | .scalar datum => complete datum frames
  | .string (some value) => complete (.text value) frames
  | .string none => complete .unreadable frames
  | .openList => some ⟨.datumOrEnd, .list [] :: frames⟩
  | .openTable => some ⟨.keyOrEnd, .table [] :: frames⟩
  | _ => none

/-- Takes a token where a key has to come. -/
def takeKey : List Frame → Token → Option Reader
  | .table entries :: frames, .string key => some ⟨.colon, .entry entries key :: frames⟩
  | _, _ => none

/-- Takes a token that ends a list or a table. -/
def takeEnd : List Frame → Token → Option Reader
  | .list items :: frames, .closeList => complete (.list items.reverse) frames
  | .table entries :: frames, .closeTable => complete (closeTable entries) frames
  | _, _ => none

/-- Takes a token after a complete element. -/
def takeSeparator : List Frame → Token → Option Reader
  | .list items :: frames, .comma => some ⟨.datum, .list items :: frames⟩
  | .table entries :: frames, .comma => some ⟨.key, .table entries :: frames⟩
  | frames, token => takeEnd frames token

/-- Takes a token. -/
def step (reader : Reader) (token : Token) : Option Reader :=
  match reader.expected with
  | .datum => takeDatum reader.frames token
  | .datumOrEnd => takeDatum reader.frames token <|> takeEnd reader.frames token
  | .key => takeKey reader.frames token
  | .keyOrEnd => takeKey reader.frames token <|> takeEnd reader.frames token
  | .colon => if token matches .colon then some ⟨.datum, reader.frames⟩ else none
  | .separator => takeSeparator reader.frames token
  | .done _ => none

/-- The datum that has been read, if it is complete. -/
def datum? (reader : Reader) : Option Datum :=
  match reader.expected with
  | .done datum => some datum
  | _ => none

end Reader

/-- The datum that a JSON text describes. -/
def read? (text : String) : Option Datum := do
  let tokens ← tokens? text.toList
  let reader ← tokens.foldlM Reader.step Reader.start
  reader.datum?

end Sidescroller.Json
