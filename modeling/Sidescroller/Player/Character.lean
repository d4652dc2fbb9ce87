import Sidescroller.Level.Basic
import Sidescroller.Text

/-!
# Characters

A finished character: a name, and an entry of each appearance table. An index is any 64-bit number;
looking one up wraps around the table, so that an index that has drifted out of range still names an
entry.

* `Trait` is what can be chosen, in the order in which character creation asks for it.
* `Character.resolve` is the entry shown, `Character.cycle` moves on to another one.
* `Character.normalName` is what becomes of a name that was typed in.
-/

namespace Sidescroller

/-- An entry of an appearance table. -/
structure Appearance where
  label : String
  /-- Colour shown. -/
  color : Color
  deriving DecidableEq, Inhabited

/-- What can be chosen about a character, in the order of character creation. -/
inductive Trait where
  | hair
  | race
  | outfit
  deriving DecidableEq, Inhabited

namespace Trait

def hairStyles : List Appearance :=
  [⟨"Short Fringe", ⟨60, 60, 60⟩⟩, ⟨"Raven Waves", ⟨20, 20, 20⟩⟩,
    ⟨"Moonlit Bob", ⟨200, 200, 200⟩⟩, ⟨"Electric Shag", ⟨90, 20, 120⟩⟩,
    ⟨"Sunset Plait", ⟨220, 90, 40⟩⟩]

def races : List Appearance :=
  [⟨"Werewolf", ⟨140, 90, 70⟩⟩, ⟨"Vampire", ⟨200, 200, 240⟩⟩, ⟨"Siren", ⟨90, 140, 200⟩⟩,
    ⟨"Gorgon", ⟨90, 180, 100⟩⟩, ⟨"Sorcerer", ⟨170, 120, 200⟩⟩]

def outfits : List Appearance :=
  [⟨"Academy Uniform", ⟨40, 40, 80⟩⟩, ⟨"Dueling Cloak", ⟨60, 20, 100⟩⟩,
    ⟨"Raven Scout", ⟨30, 70, 120⟩⟩, ⟨"Workshop Apron", ⟨110, 70, 30⟩⟩]

/-- The table a trait is chosen from. -/
def options : Trait → List Appearance
  | hair => hairStyles
  | race => races
  | outfit => outfits

theorem length_options_pos (trait : Trait) : 0 < trait.options.length := by
  cases trait <;> decide

/-- The trait after this one; the first follows the last. -/
def next : Trait → Trait
  | hair => race
  | race => outfit
  | outfit => hair

/-- The trait before this one; the last precedes the first. -/
def previous : Trait → Trait
  | hair => outfit
  | race => hair
  | outfit => race

end Trait

/-- A finished character. -/
structure Character where
  name : String
  /-- Index into the hair styles. -/
  hair : UInt64
  /-- Index into the heritages. -/
  race : UInt64
  /-- Index into the outfits. -/
  outfit : UInt64
  deriving DecidableEq, Inhabited

namespace Character

/-- The name of a character that was given none. -/
def defaultName : String := "New Raven"

/-- The number of characters that a name may have. -/
def maxNameLength : Nat := 18

/-- A typed name in the form it is kept in: without blanks at the ends, cut to the permitted length,
and replaced by the default if nothing is left. -/
def normalName (typed : String) : String :=
  match (Text.trim typed.toList).take maxNameLength with
  | [] => defaultName
  | c :: cs => String.ofList (c :: cs)

/-- The character with a typed name. -/
def rename (character : Character) (typed : String) : Character :=
  { character with name := normalName typed }

/-- The character nobody has changed yet. -/
def fresh : Character := ⟨defaultName, 0, 0, 0⟩

/-- A fresh character with a typed name. -/
def ofName (typed : String) : Character := fresh.rename typed

/-- The character with other indices. -/
def withIndices (character : Character) (hair race outfit : UInt64) : Character :=
  { character with hair, race, outfit }

/-- The index of a trait. -/
def index (character : Character) : Trait → UInt64
  | .hair => character.hair
  | .race => character.race
  | .outfit => character.outfit

/-- The character with another index for one trait. -/
def setIndex (character : Character) (trait : Trait) (index : UInt64) : Character :=
  match trait with
  | .hair => { character with hair := index }
  | .race => { character with race := index }
  | .outfit => { character with outfit := index }

/-- The entry that a trait shows: the index wraps around the table. -/
def resolve (character : Character) (trait : Trait) : Appearance :=
  trait.options.get
    ⟨(character.index trait).toNat % trait.options.length, Nat.mod_lt _ trait.length_options_pos⟩

/-- Moves a trait some places on, or back if there are less than none. The index is read as a signed
number, and the new one is the least remainder modulo the length of the table. -/
def cycle (character : Character) (trait : Trait) (places : Int32) : Character :=
  let moved := (character.index trait).toInt64 + places.toInt64
  character.setIndex trait (UInt64.ofNat (moved.toInt % trait.options.length).toNat)

end Character

end Sidescroller
