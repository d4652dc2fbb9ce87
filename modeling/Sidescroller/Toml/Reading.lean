import Sidescroller.Toml.Scalar
import Sidescroller.Toml.Table
import Sidescroller.Toml.Text

/-!
# Reading TOML

`Toml.read?` is the table that a TOML document describes. A document is a sequence of lines:
headers, entries, comments and empty lines. Values may be nested up to a limit, and lists may go
over several lines.
-/

namespace Sidescroller.Toml

/-! ### Values -/

/-- The characters of a word. -/
def isWordCharacter (c : Char) : Bool := isBare c || c == '+' || c == '.' || c == ':'

/-- Reads a word. A date may be followed by a blank and a time, which begins with a digit. -/
def word? (s : List Char) : Option (Datum × List Char) :=
  let word := s.takeWhile isWordCharacter
  let rest := s.dropWhile isWordCharacter
  -- No digit can follow the blank after a whole value, so a digit there is the time of the date.
  match Moment.read? word, rest with
  | some (.date _), ' ' :: c :: tail =>
    if Text.isDigit c then
      let time := c :: tail.takeWhile isWordCharacter
      (moment? (word ++ ' ' :: time)).map (·, tail.dropWhile isWordCharacter)
    else (scalar? word).map (·, rest)
  | _, _ => (scalar? word).map (·, rest)

/-- Reads the elements of a list and its closing bracket. Each element but the last ends with a
comma, so that there are at most as many as characters. -/
def elements? (value : Reader Datum) : Nat → Reader (List Datum)
  | 0, _ => none
  | n + 1, s => do
    match ← skipLines s with
    | ']' :: rest => return ([], rest)
    | s =>
      let (datum, rest) ← value s
      match ← skipLines rest with
      | ',' :: rest =>
        let (data, rest) ← elements? value n rest
        return (datum :: data, rest)
      | ']' :: rest => return ([datum], rest)
      | _ => failure

/-- Reads an entry: a key, an equals sign and a value. -/
def assignment? (value : Reader Datum) : Reader (List String × Datum) := fun s => do
  let (path, rest) ← keyPath? s
  match rest with
  | '=' :: rest =>
    let (datum, rest) ← value (skipSpace rest)
    return ((path, datum), rest)
  | _ => failure

/-- Reads the entries of a table within a line and its closing brace. A comma has to be followed by
another entry. -/
def inlineEntries? (value : Reader Datum) : Nat → Entries → Reader Entries
  | 0, _, _ => none
  | n + 1, entries, s => do
    let ((path, datum), rest) ← assignment? value s
    let entries ← entries.assign datum true path
    match skipSpace rest with
    | ',' :: rest => inlineEntries? value n entries rest
    | '\x7d' :: rest => return (entries, rest)
    | _ => failure

/-- Reads a value that is nested at most `depth` deep. -/
def value? : Nat → Reader Datum
  | _, '"' :: s => (string? ('"' :: s)).map fun (cs, rest) => (.text (String.ofList cs), rest)
  | _, '\'' :: s => (string? ('\'' :: s)).map fun (cs, rest) => (.text (String.ofList cs), rest)
  | 0, '[' :: _ => none
  | depth + 1, '[' :: s =>
    (elements? (value? depth) (s.length + 1) s).map fun (data, rest) => (.list data, rest)
  | 0, '\x7b' :: _ => none
  | depth + 1, '\x7b' :: s =>
    match skipSpace s with
    | '\x7d' :: rest => some (.table [], rest)
    | s =>
      (inlineEntries? (value? depth) (s.length + 1) [] s).map fun (entries, rest) =>
        (.table (Entries.toData entries), rest)
  | _, s => word? s

/-! ### Lines -/

/-- A document that has been read up to some line. -/
structure Progress where
  root : Entries
  /-- The header that the next entries belong to. -/
  header : List String

/-- The key at the end of a path, and the path to it. -/
def splitLast? : List String → Option (List String × String)
  | [] => none
  | [key] => some ([], key)
  | key :: path => (splitLast? path).map fun (front, last) => (key :: front, last)

namespace Progress

/-- Takes a header. -/
def underHeader (progress : Progress) (path : List String)
    (change : String → Entries → Option Entries) : Option Progress := do
  let (front, last) ← splitLast? path
  return ⟨← progress.root.within (change last) front, path⟩

/-- Takes an entry. -/
def withEntry (progress : Progress) (path : List String) (datum : Datum) : Option Progress := do
  return { progress with root := ← progress.root.within (·.assign datum true path) progress.header }

end Progress

/-- Reads the path of a header and the brackets that close it. -/
def headerPath? (closing : List Char) : Reader (List String) := fun s => do
  let (path, rest) ← keyPath? s
  if closing.isPrefixOf rest then return (path, rest.drop closing.length) else failure

/-- Reads a line and the line break at its end. -/
def line? (progress : Progress) (s : List Char) : Option (Progress × List Char) := do
  match skipSpace s with
  | '[' :: '[' :: s =>
    let (path, rest) ← headerPath? [']', ']'] s
    return (← progress.underHeader path Entries.openElement, ← lineEnd? rest)
  | '[' :: s =>
    let (path, rest) ← headerPath? [']'] s
    return (← progress.underHeader path Entries.openTable, ← lineEnd? rest)
  | s =>
    -- A line may hold nothing but blanks and a comment.
    match lineEnd? s with
    | some rest => return (progress, rest)
    | none =>
      let ((path, datum), rest) ← assignment? (value? depthLimit) s
      return (← progress.withEntry path datum, ← lineEnd? rest)

/-- Reads lines up to the end, of which there are at most as many as characters. -/
def lines? : Nat → Progress → List Char → Option Progress
  | _, progress, [] => some progress
  | 0, _, _ => none
  | n + 1, progress, s => do
    let (progress, rest) ← line? progress s
    lines? n progress rest

/-- Skips the mark that may stand before a document. -/
def skipMark : List Char → List Char
  | '\ufeff' :: s => s
  | s => s

/-- The table that a TOML document describes. -/
def read? (text : String) : Option Datum := do
  let s := skipMark text.toList
  let progress ← lines? s.length ⟨[], []⟩ s
  return .table (Entries.toData progress.root)

end Sidescroller.Toml
