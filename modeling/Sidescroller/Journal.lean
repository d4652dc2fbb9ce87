/-!
# The journal

A run can be followed in a journal: one line for each thing worth noting, with its severity, the
part of the program it comes from, and some fields. A filter chooses what is shown; it is written
as a list of directives with commas between them, each of them a severity for everything or
`source=severity` for a part of the program.
-/

namespace Sidescroller.Journal

/-- How important an entry is. -/
inductive Severity where
  | error
  | warn
  | info
  | debug
  | trace
  deriving DecidableEq, Inhabited

namespace Severity

/-- The rank of a severity; what is more important comes first. -/
def rank : Severity → Nat
  | error => 1
  | warn => 2
  | info => 3
  | debug => 4
  | trace => 5

/-- The name of a severity. -/
def name : Severity → String
  | error => "ERROR"
  | warn => "WARN"
  | info => "INFO"
  | debug => "DEBUG"
  | trace => "TRACE"

end Severity

/-- What is noted about an entry. -/
inductive Value where
  /-- A text as it is. -/
  | bare (text : String)
  /-- A text in quotes. -/
  | quoted (text : String)
  | count (n : Nat)
  deriving DecidableEq

/-- The text of a value. -/
def Value.text : Value → String
  | bare text => text
  | quoted text => "\"" ++ text ++ "\""
  | count n => toString n

/-- An entry of the journal. -/
structure Entry where
  severity : Severity
  /-- The part of the program it comes from. -/
  source : String
  message : String
  fields : List (String × Value)
  deriving DecidableEq

/-- The line of an entry. -/
def Entry.line (entry : Entry) : String :=
  let fields := entry.fields.map fun (name, value) => " " ++ name ++ "=" ++ value.text
  entry.severity.name ++ " " ++ entry.source ++ ": " ++ entry.message ++ String.join fields

/-! ### Filters -/

/-- What is shown of the entries whose source begins with some text. -/
structure Directive where
  /-- How the source begins. -/
  source : String
  /-- The last rank that is shown. -/
  lastRank : Nat
  deriving DecidableEq

/-- What is shown. -/
structure Filter where
  directives : List Directive
  deriving DecidableEq

namespace Filter

/-- The last rank that the name of a severity, in any case, or its number lets through. -/
def rank? (text : String) : Option Nat :=
  match text.toLower with
  | "off" | "0" => some 0
  | "error" | "1" => some 1
  | "warn" | "2" => some 2
  | "info" | "3" => some 3
  | "debug" | "4" => some 4
  | "trace" | "5" => some 5
  | _ => none

/-- Whether the character can be part of a source. -/
def isSourceCharacter (c : Char) : Bool := c.isAlphanum || c == '_' || c == ':' || c == '-'

/-- Reads a directive. A source without a severity shows everything from it. -/
def directive? (text : String) : Option Directive :=
  match rank? text with
  | some rank => some ⟨"", rank⟩
  | none =>
    let cs := text.toList
    let source := cs.takeWhile isSourceCharacter
    if source.isEmpty then none
    else match cs.dropWhile isSourceCharacter with
      | [] | ['='] => some ⟨String.ofList source, 5⟩
      | '=' :: severity => (rank? (String.ofList severity)).map (⟨String.ofList source, ·⟩)
      | _ => none

/-- Reads a filter. One without directives shows errors only. -/
def read? (text : String) : Option Filter := do
  let directives ← ((text.splitOn ",").filter (!·.isEmpty)).mapM directive?
  return ⟨if directives.isEmpty then [⟨"", 1⟩] else directives⟩

/-- Of two directives, the one for the longer source; the later one if they are of one length. -/
def stronger (a b : Directive) : Directive := if b.source.length < a.source.length then a else b

/-- Whether an entry is shown: the directive for the longest beginning of its source decides. -/
def shows (filter : Filter) (entry : Entry) : Bool :=
  match filter.directives.filter fun d => d.source.toList.isPrefixOf entry.source.toList with
  | [] => false
  | d :: ds => entry.severity.rank ≤ (ds.foldl stronger d).lastRank

/-- The lines of the entries that are shown. -/
def lines (filter : Filter) (entries : List Entry) : List String :=
  (entries.filter filter.shows).map Entry.line

end Filter

end Sidescroller.Journal
