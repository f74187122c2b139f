import StatusPanel.Screen.Bar
import StatusPanel.Keyboard.Lighting

/-!
# Layout of the status screen

Where the parts of the screen are on a panel of 128 by 64 pixels:

```text
 x: 0           48  52 62                       128
    +------------+   +-+----------------------+   y 0
    | default    |   |s| hue                  |
    | layer      |   |p| saturation           |
    +------------+   |d| value                |   y 16
    [sym]  [ctl]     +-+----------------------+   y 24
                     (>) [] [] [] [] [] []        y 26  effect index
    CAPS|NUM |SCRL                                y 32

    ==================== speed ================   y 54
```

## Main definitions

* `Part`: the parts that are redrawn on their own, in drawing order
* `Part.area`: the area of a part
* `Layout.effectSquareX`: the place of a square of the effect index

## Main results

* `Layout.screen_containsArea`: every part lies on the panel
* `Layout.overlaps_area`: two parts that overlap are the same, unless one is the background
-/

namespace StatusPanel

/-- A part of the screen that is redrawn on its own. -/
inductive Part
  /-- The empty screen and its decoration. -/
  | background
  /-- The glyph of the default layer. -/
  | defaultLayer
  /-- The checkboxes of the momentary layers. -/
  | layers
  /-- The lock icons and the separators between them. -/
  | locks
  /-- The bars of the lighting parameters. -/
  | lightingBars
  /-- The squares of the effect number. -/
  | effectIndex
  /-- The bar of the typing speed. -/
  | speed
  deriving DecidableEq, Repr

/-- The parts in drawing order. -/
def Part.all : List Part :=
  [.background, .defaultLayer, .layers, .locks, .lightingBars, .effectIndex, .speed]

namespace Layout

/-- The whole panel. -/
def screen : Area := ⟨0, 0, 128, 64⟩

/-- The default layer's glyph. -/
def defaultLayer : Area := ⟨0, 0, 48, 16⟩

/-- The checkboxes. -/
def layers : Area := ⟨0, 18, 48, 10⟩

/-- The left edges of the checkboxes. -/
def checkboxX : List UInt16 := [0, 24]

/-- The lock icons and separators. -/
def locks : Area := ⟨0, 32, 48, 10⟩

/-- The left edge of the caps icon. -/
def capsX : UInt16 := 0

/-- The left edge of the separator between caps and num. -/
def leftSeparatorX : UInt16 := 12

/-- The left edge of the num icon. -/
def numX : UInt16 := 15

/-- The left edge of the separator between num and scroll. -/
def rightSeparatorX : UInt16 := 27

/-- The left edge of the scroll icon. -/
def scrollX : UInt16 := 30

/-- The lighting bars. -/
def lightingBars : Area := ⟨52, 0, 76, 24⟩

/-- The bar of the effect speed. -/
def effectSpeedBar : Bar := ⟨.fromBottom, ⟨52, 0, 6, 24⟩⟩

/-- The bar of the hue. -/
def hueBar : Bar := ⟨.fromLeft, ⟨62, 0, 64, 6⟩⟩

/-- The bar of the saturation. -/
def satBar : Bar := ⟨.fromLeft, ⟨62, 8, 64, 6⟩⟩

/-- The bar of the value. -/
def valBar : Bar := ⟨.fromLeft, ⟨62, 16, 64, 6⟩⟩

/-- The left edge of the icon under the bar of the effect speed. -/
def speedIconX : UInt16 := 52

/-- The top edge of that icon. -/
def speedIconY : UInt16 := 26

/-- The effect index. -/
def effectIndex : Area := ⟨62, 26, 64, 8⟩

/-- The size of a square of the effect index. -/
def squareSize : UInt16 := 8

/-- The distance from a square to the next. -/
def squarePitch : UInt16 := 11

/-- The left edge of the square of a bit; bit 0 is the rightmost. -/
def effectSquareX (bit : UInt8) : UInt16 :=
  effectIndex.x + (5 - bit).toUInt16 * squarePitch

/-- The typing speed. -/
def speed : Area := ⟨0, 52, 128, 12⟩

/-- The bar of the typing speed. -/
def speedBar : Bar := ⟨.fromLeft, ⟨0, 54, 128, 8⟩⟩

end Layout

/-- The area of a part. -/
def Part.area : Part → Area
  | .background => Layout.screen
  | .defaultLayer => Layout.defaultLayer
  | .layers => Layout.layers
  | .locks => Layout.locks
  | .lightingBars => Layout.lightingBars
  | .effectIndex => Layout.effectIndex
  | .speed => Layout.speed

namespace Layout

/-- Every part lies on the screen. -/
theorem screen_containsArea (part : Part) : screen.containsArea part.area = true := by
  cases part <;> decide

/-- Two parts that overlap are the same, unless one is the background. -/
theorem overlaps_area {p q : Part} (hp : p ≠ .background) (hq : q ≠ .background)
    (h : p.area.overlaps q.area = true) : p = q := by
  revert hp hq h
  cases p <;> cases q <;> decide

end Layout

end StatusPanel
