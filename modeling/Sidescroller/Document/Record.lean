import Sidescroller.Document.Datum

/-!
# Records

A record has a fixed list of fields. In a document it is a table with the fields as keys, or a list
with the fields in their order. Entries with other keys are skipped.

* `Record.ofDatum?` finds the fields that are given.
* `Record.need?`, `Record.orElse?` read one field, which must be given or has a default.

A list may be too short, which leaves the last fields out. Whether it may be too long is a matter of
the document: `Surplus`.
-/

namespace Sidescroller

/-- What is made of the elements that a list has beyond the fields of a record. -/
inductive Surplus where
  /-- They are refused. -/
  | refused
  /-- They are skipped. -/
  | skipped
  deriving DecidableEq

/-- The fields of a record that a document gives, each at most once. -/
structure Record where
  /-- The fields and what is given for them. -/
  fields : List (String × Datum)

namespace Record

/-- The fields of a record that a datum gives. Fails if a field is given twice, or if the datum is
neither a table nor a list that may be taken for the record. -/
def ofDatum? (surplus : Surplus) (names : List String) : Datum → Option Record
  | .table entries =>
    let known := entries.filter fun entry => names.contains entry.1
    if (known.map Prod.fst).Nodup then some ⟨known⟩ else none
  | .list items =>
    if surplus = .skipped ∨ items.length ≤ names.length then some ⟨names.zip items⟩ else none
  | _ => none

/-- What is given for a field. -/
def get? (record : Record) (name : String) : Option Datum := record.fields.lookup name

/-- Reads a field that has to be given. -/
def need? {α : Type} (record : Record) (name : String) (read : Datum → Option α) : Option α :=
  (record.get? name).bind read

/-- Reads a field that has a default. -/
def orElse? {α : Type} (record : Record) (name : String) (read : Datum → Option α) (default : α) :
    Option α :=
  match record.get? name with
  | none => some default
  | some datum => read datum

/-- Reads a text that may be missing. -/
def textOrNone? (record : Record) (name : String) : Option (Option String) :=
  record.orElse? name (Datum.optional? Datum.text?) none

end Record

/-- Reads a value with named alternatives: the name alone, or a table whose only entry has the name
for its key. The alternative is read from what is given for it, if anything. -/
def Datum.alternative? {α : Type} (read : String → Option Datum → Option α) : Datum → Option α
  | .text name => read name none
  | .table [(name, payload)] => read name (some payload)
  | _ => none

end Sidescroller
