/-!
# What the player wants

An `Intent` is what was pressed during one tick. Everything that reacts to the player in that tick
reads the same intent.
-/

namespace Sidescroller

/-- The horizontal direction that is held. -/
inductive Heading where
  | left
  | idle
  | right
  deriving DecidableEq, Inhabited

namespace Heading

/-- The direction as a factor: -1, 0 or 1. -/
def sign : Heading → Float32
  | left => -1
  | idle => 0
  | right => 1

/-- The direction of two held keys. Opposite keys cancel out. -/
def ofHeld : Bool → Bool → Heading
  | true, false => left
  | false, true => right
  | _, _ => idle

end Heading

/-- What was pressed during one tick. -/
structure Intent where
  /-- The direction held. -/
  heading : Heading := .idle
  jump : Bool := false
  /-- Talk to whoever is near. -/
  interact : Bool := false
  /-- Move the highlight to the choice above. -/
  menuUp : Bool := false
  /-- Move the highlight to the choice below. -/
  menuDown : Bool := false
  /-- The number key pressed; choices are numbered from 1. -/
  numeric : Option UInt8 := none
  /-- Take the highlighted choice. -/
  confirm : Bool := false
  /-- Leave the conversation. -/
  cancel : Bool := false
  deriving DecidableEq, Inhabited

namespace Intent

/-- Nothing is pressed. -/
def idle : Intent := {}

/-- The intent with a number key pressed. Only the keys 1 to 9 number choices; any other key leaves
no number pressed. -/
def press (intent : Intent) (key : UInt8) : Intent :=
  { intent with numeric := if 1 ≤ key ∧ key ≤ 9 then some key else none }

end Intent

end Sidescroller
