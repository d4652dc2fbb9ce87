import Sidescroller.Rules.Document
import Sidescroller.Rules.Violation
import Sidescroller.Toml.Reading

/-!
# Loading rules

Rules are loaded from a TOML document, and only if they make sense as a whole.
-/

namespace Sidescroller.Rules

/-- Why rules cannot be loaded. -/
inductive LoadError where
  /-- The document does not describe rules. -/
  | unreadable
  /-- The rules do not make sense. -/
  | invalid (violation : Violation)
  deriving DecidableEq

/-- The rules that a table of a document describes, if they make sense. -/
def accept (datum : Datum) : Except LoadError Rules :=
  match ofDatum? .skipped datum with
  | none => .error .unreadable
  | some rules =>
    match rules.violation? with
    | none => .ok rules
    | some violation => .error (.invalid violation)

/-- The rules that a TOML document describes, if they make sense. -/
def load (text : String) : Except LoadError Rules :=
  match Toml.read? text with
  | none => .error .unreadable
  | some datum => accept datum

end Sidescroller.Rules
