import Sidescroller.Document.Datum

/-!
# Tables of TOML

A TOML document says in many places what goes into a table: under its header, under the headers of
tables within it, and by keys with dots. `Entries` is what has been said so far, with the way in
which each table came to be, which decides what may still be added to it.

* `assign` adds an entry under a key with dots. It goes through tables made by such keys or implied
  by headers, and never through a table that has a header of its own.
* `openTable` and `openElement` are the two kinds of headers.
* `within` goes to the table of a header.
-/

namespace Sidescroller.Toml

/-- How a table came to be. -/
inductive Origin where
  /-- It has a header of its own. -/
  | header
  /-- It was implied by the header of a table within it. -/
  | implied
  /-- It was made by a key with dots. -/
  | dotted
  deriving DecidableEq

/-- What has been said about a key. -/
inductive Item where
  | value (datum : Datum)
  | table (origin : Origin) (entries : List (String × Item))
  /-- It is a list of tables, here in reverse order. -/
  | tables (elements : List (List (String × Item)))

/-- What has been said about the keys of a table. -/
abbrev Entries := List (String × Item)

namespace Entries

/-- The entries with another item for a key that they have. -/
def replace (entries : Entries) (key : String) (item : Item) : Entries :=
  entries.map fun entry => if entry.1 == key then (key, item) else entry

/-- The entries with one more. -/
def add (entries : Entries) (key : String) (item : Item) : Entries := entries ++ [(key, item)]

/-- Gives a value to a key, which must not have been mentioned; `path` leads to the key through
tables that keys with dots may extend. `fits` says whether a value may be put into these entries:
it may at the beginning of the path, and after that in a table made by a key with dots. -/
def assign (datum : Datum) (fits : Bool) : List String → Entries → Option Entries
  | [], _ => none
  | [key], entries =>
    if fits && (entries.lookup key).isNone then some (add entries key (.value datum)) else none
  | key :: path, entries =>
    match entries.lookup key with
    | none => (assign datum true path []).map fun inner => add entries key (.table .dotted inner)
    | some (.value _) => none
    | some (.table origin inner) =>
      -- What has a header of its own can be extended under that header only.
      if origin = .header then none
      else
        (assign datum (origin = .dotted) path inner).map fun inner =>
          replace entries key (.table origin inner)
    | some (.tables []) => none
    | some (.tables (last :: earlier)) =>
      (assign datum false path last).map fun last =>
        replace entries key (.tables (last :: earlier))

/-- Changes the table that a header path leads to. Tables that are not there yet are implied; of a
list of tables, the last one is meant. -/
def within (change : Entries → Option Entries) : List String → Entries → Option Entries
  | [], entries => change entries
  | key :: path, entries =>
    match entries.lookup key with
    | none => (within change path []).map fun inner => add entries key (.table .implied inner)
    | some (.value _) => none
    | some (.table origin inner) =>
      (within change path inner).map fun inner => replace entries key (.table origin inner)
    | some (.tables []) => none
    | some (.tables (last :: earlier)) =>
      (within change path last).map fun last => replace entries key (.tables (last :: earlier))

/-- The header of a table. It must not have been mentioned, unless it was implied. -/
def openTable (key : String) (entries : Entries) : Option Entries :=
  match entries.lookup key with
  | none => some (add entries key (.table .header []))
  -- What deeper headers have put into it stays.
  | some (.table .implied inner) => some (replace entries key (.table .header inner))
  | some _ => none

/-- The header of one more element of a list of tables. -/
def openElement (key : String) (entries : Entries) : Option Entries :=
  match entries.lookup key with
  | none => some (add entries key (.tables [[]]))
  | some (.tables elements) => some (replace entries key (.tables ([] :: elements)))
  | some _ => none

end Entries

mutual

/-- What has been said about a key, as a datum. -/
def Item.toDatum : Item → Datum
  | .value datum => datum
  | .table _ entries => .table (Entries.toData entries)
  | .tables elements => .list (Entries.toTables elements).reverse

/-- What has been said about the keys of a table, as data. -/
def Entries.toData : List (String × Item) → List (String × Datum)
  | [] => []
  | (key, item) :: entries => (key, item.toDatum) :: Entries.toData entries

/-- A list of tables, as data. -/
def Entries.toTables : List (List (String × Item)) → List Datum
  | [] => []
  | entries :: elements => .table (Entries.toData entries) :: Entries.toTables elements

end

end Sidescroller.Toml
