import Sidescroller.Document.Record

/-!
# The plane

Points and axis-aligned rectangles. The plane has `x` growing to the right and `y` growing
downwards.

A rectangle is a corner and a size. Nothing asks for the size to be positive: `Rect.overlaps` is a
statement about the four edges, and says what it says for every rectangle. In a document, points and
rectangles are records of their numbers, none of which may be missing.
-/

namespace Sidescroller

/-! ### Points -/

/-- A point of the plane, or a displacement. -/
structure Vec2 where
  /-- Distance to the right. -/
  x : Float32
  /-- Distance downwards. -/
  y : Float32
  deriving DecidableEq, Inhabited

namespace Vec2

def zero : Vec2 := ⟨0, 0⟩

instance : Add Vec2 := ⟨fun a b => ⟨a.x + b.x, a.y + b.y⟩⟩

instance : Sub Vec2 := ⟨fun a b => ⟨a.x - b.x, a.y - b.y⟩⟩

/-- Two points are equal as numbers: the two zeros agree, and a NaN agrees with nothing. -/
instance : BEq Vec2 := ⟨fun a b => a.x == b.x && a.y == b.y⟩

def ofDatum? (surplus : Surplus) (datum : Datum) : Option Vec2 := do
  let r ← Record.ofDatum? surplus ["x", "y"] datum
  return ⟨← r.need? "x" Datum.float?, ← r.need? "y" Datum.float?⟩

def toDatum (v : Vec2) : Datum := .table [("x", .float v.x), ("y", .float v.y)]

end Vec2

/-! ### Rectangles -/

/-- A rectangle with sides along the axes, given by its upper left corner and its size. -/
structure Rect where
  /-- Left edge. -/
  x : Float32
  /-- Upper edge. -/
  y : Float32
  /-- Extent to the right. -/
  width : Float32
  /-- Extent downwards. -/
  height : Float32
  deriving DecidableEq, Inhabited

namespace Rect

/-- Two rectangles are equal as numbers: zeros of either sign agree, and a NaN agrees with
nothing. -/
instance : BEq Rect :=
  ⟨fun a b => a.x == b.x && a.y == b.y && a.width == b.width && a.height == b.height⟩

/-- The rectangle of a given size whose upper left corner is `corner`. -/
def ofCorner (corner size : Vec2) : Rect := ⟨corner.x, corner.y, size.x, size.y⟩

/-- The left edge. -/
def left (r : Rect) : Float32 := r.x

/-- The right edge. -/
def right (r : Rect) : Float32 := r.x + r.width

/-- The upper edge. -/
def top (r : Rect) : Float32 := r.y

/-- The lower edge. -/
def bottom (r : Rect) : Float32 := r.y + r.height

/-- The middle of the rectangle. -/
def center (r : Rect) : Vec2 := ⟨r.x + r.width / 2, r.y + r.height / 2⟩

/-- Two rectangles overlap when each begins strictly before the other ends, on both axes.
Rectangles that only touch do not overlap. -/
def overlaps (a b : Rect) : Bool :=
  a.left < b.right && b.left < a.right && a.top < b.bottom && b.top < a.bottom

/-- The rectangle grown by `margin` on every side. -/
def inflate (r : Rect) (margin : Float32) : Rect :=
  ⟨r.x - margin, r.y - margin, r.width + margin * 2, r.height + margin * 2⟩

/-- The rectangle moved by a displacement. -/
def translate (r : Rect) (delta : Vec2) : Rect :=
  ⟨r.x + delta.x, r.y + delta.y, r.width, r.height⟩

def ofDatum? (surplus : Surplus) (datum : Datum) : Option Rect := do
  let r ← Record.ofDatum? surplus ["x", "y", "width", "height"] datum
  return ⟨← r.need? "x" Datum.float?, ← r.need? "y" Datum.float?,
    ← r.need? "width" Datum.float?, ← r.need? "height" Datum.float?⟩

def toDatum (r : Rect) : Datum :=
  .table [("x", .float r.x), ("y", .float r.y), ("width", .float r.width),
    ("height", .float r.height)]

end Rect

end Sidescroller
