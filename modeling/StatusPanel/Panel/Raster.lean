import StatusPanel.Asset.Bitmap
import StatusPanel.Panel.Canvas
import StatusPanel.Surface.Basic

/-!
# Strokes as pixels

The pixels that a stroke sets. A filled rectangle sets all its pixels, an outline those of its
border, which is one pixel wide and lies inside; a picture sets each of its pixels, off as well as
on.

## Main definitions

* `Raster.fill`, `Raster.outline`, `Raster.image`: the pixels of the three shapes
* `Stroke.dots`: the pixels of a stroke
* `Stroke.fits`: whether a stroke lies on the panel
-/

namespace StatusPanel

namespace Raster

/-- The pixels of a rectangle with inclusive edges, row by row. -/
def fill (left top right bottom : Nat) (on : Bool) : List Dot :=
  (List.range' top (bottom + 1 - top)).flatMap fun (y : Nat) =>
    (List.range' left (right + 1 - left)).map fun (x : Nat) => ⟨x, y, on⟩

/-- The pixels of the border of a rectangle. -/
def outline (left top right bottom : Nat) (on : Bool) : List Dot :=
  (fill left top right bottom on).filter fun d =>
    d.x = left || d.x = right || d.y = top || d.y = bottom

/-- The pixels of a picture with its top left corner at a pixel, row by row. -/
def image (left top : Nat) (b : Bitmap) : List Dot :=
  (List.range b.height.toNat).flatMap fun j =>
    (List.range b.width.toNat).map fun i => ⟨(left + i : Nat), (top + j : Nat), b.pixel i j⟩

end Raster

namespace Stroke

/-- The pixels that a stroke sets, in order. -/
def dots : Stroke Bitmap → List Dot
  | .image x y picture => Raster.image x.toNat y.toNat picture
  | .rect left top right bottom color true =>
    Raster.fill left.toNat top.toNat right.toNat bottom.toNat color.isLit
  | .rect left top right bottom color false =>
    Raster.outline left.toNat top.toNat right.toNat bottom.toNat color.isLit

/-- Whether a stroke lies on the panel, its edges in order. -/
def fits : Stroke Bitmap → Bool
  | .image x y picture =>
    x.toNat + picture.width.toNat ≤ panelWidth && y.toNat + picture.height.toNat ≤ panelHeight
  | .rect left top right bottom _ _ =>
    left ≤ right && top ≤ bottom && right.toNat < panelWidth && bottom.toNat < panelHeight

end Stroke

end StatusPanel
