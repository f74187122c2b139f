/-!
# Screen areas

Axis-aligned rectangles of pixels. Coordinates are 16-bit words; an area within `0 … 65535` on both
axes never makes one wrap.

## Main definitions

* `Area`: a rectangle by corner and size
* `Area.right`, `Area.bottom`: its last column and row
* `Area.contains`, `Area.containsArea`, `Area.overlaps`: its pixels, and its relation to others
-/

namespace StatusPanel

/-- A rectangle of pixels. -/
structure Area where
  /-- The leftmost column. -/
  x : UInt16
  /-- The topmost row. -/
  y : UInt16
  width : UInt16
  height : UInt16
  deriving DecidableEq, Repr

namespace Area

/-- How far the last of `size` pixels is from the first; no pixels count as one. -/
def reach (size : UInt16) : UInt16 :=
  if size = 0 then 0 else size - 1

/-- The last column. -/
def right (a : Area) : UInt16 := a.x + reach a.width

/-- The last row. -/
def bottom (a : Area) : UInt16 := a.y + reach a.height

/-- Whether a pixel lies in the area. -/
def contains (a : Area) (x y : UInt16) : Bool :=
  a.x ≤ x && x < a.x + a.width && a.y ≤ y && y < a.y + a.height

/-- Whether another area lies between the edges of the area. -/
def containsArea (a b : Area) : Bool :=
  a.x ≤ b.x && a.y ≤ b.y && b.x + b.width ≤ a.x + a.width && b.y + b.height ≤ a.y + a.height

/-- Whether each of two areas begins before the other ends, on both axes. -/
def overlaps (a b : Area) : Bool :=
  a.x < b.x + b.width && b.x < a.x + a.width && a.y < b.y + b.height && b.y < a.y + a.height

end Area

end StatusPanel
