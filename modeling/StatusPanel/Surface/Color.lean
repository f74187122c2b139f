/-!
# Colours

Colours of screen strokes, and their brightness on a panel without colour.

## Main definitions

* `Color`: a colour of three channels
* `Color.luma`: its brightness
* `Color.isLit`: whether a monochrome panel lights it
-/

namespace StatusPanel

/-- A colour. -/
structure Color where
  red : UInt8
  green : UInt8
  blue : UInt8
  deriving DecidableEq, Repr

namespace Color

/-- The colour that erases. -/
def black : Color := ⟨0, 0, 0⟩

/-- The colour that draws. -/
def white : Color := ⟨255, 255, 255⟩

/-- The brightness of a colour: the channels weigh 77, 150 and 29 out of 256. -/
def luma (c : Color) : Nat :=
  (c.red.toNat * 77 + c.green.toNat * 150 + c.blue.toNat * 29) / 256

/-- Whether a monochrome panel lights a colour: from half brightness on. -/
def isLit (c : Color) : Bool := 128 ≤ c.luma

@[simp] theorem isLit_white : white.isLit = true := by decide

@[simp] theorem isLit_black : black.isLit = false := by decide

end Color

end StatusPanel
