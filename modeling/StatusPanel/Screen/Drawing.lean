import StatusPanel.Screen.Layout
import StatusPanel.Asset.Gallery
import StatusPanel.Keyboard.Status

/-!
# Drawings of the screen parts

The strokes that draw each part of the screen from the state it shows. They do not depend on what
was drawn before: bars and squares erase their place, and pictures cover theirs.

## Main definitions

* `Gallery.stroke`: the stroke of an asset, if it loaded
* `Drawing.defaultLayer`, `Drawing.layers`, `Drawing.locks`, `Drawing.lightingBars`,
  `Drawing.effectIndex`, `Drawing.speed`: the strokes of the parts
* `Drawing.part`: the strokes of a part that shows a status
-/

namespace StatusPanel

variable {ι : Type}

/-- The stroke of an asset with its corner at a pixel; none if it did not load. -/
def Gallery.stroke (g : Gallery ι) (asset : Asset) (x y : UInt16) : List (Stroke ι) :=
  match g.get? asset with
  | some picture => [.image x y picture]
  | none => []

namespace Drawing

/-- The full scale of a lighting parameter. -/
def lightingScale : Nat := 255

/-- The stroke that erases the screen. -/
def erase : Stroke ι :=
  .rect Layout.screen.x Layout.screen.y Layout.screen.right Layout.screen.bottom .black true

/-- The decoration of the empty screen. -/
def decoration (g : Gallery ι) : List (Stroke ι) :=
  g.stroke .speedIndicator Layout.speedIconX Layout.speedIconY

/-- The glyph of the default layer. -/
def defaultLayer (g : Gallery ι) (mask : LayerMask) : List (Stroke ι) :=
  g.stroke (.defaultLayer mask) Layout.defaultLayer.x Layout.defaultLayer.y

/-- The checkboxes of the indicated layers, from left to right. -/
def layers (g : Gallery ι) (mask : LayerMask) : List (Stroke ι) :=
  (Layer.indicated.zip Layout.checkboxX).flatMap fun (layer, x) =>
    g.stroke (.checkbox (mask.contains layer)) x Layout.layers.y

/-- The icon of a lock key. -/
def lockIcon (g : Gallery ι) (locks : Locks) (key : LockKey) (x : UInt16) : List (Stroke ι) :=
  g.stroke (.lockIcon key (locks.get key)) x Layout.locks.y

/-- A separator between two lock icons. -/
def separator (g : Gallery ι) (shape : Separator) (x : UInt16) : List (Stroke ι) :=
  g.stroke (.separator shape) x Layout.locks.y

/-- The lock icons, then the separators between them. -/
def locks (g : Gallery ι) (locks : Locks) : List (Stroke ι) :=
  lockIcon g locks .caps Layout.capsX ++ lockIcon g locks .num Layout.numX ++
    lockIcon g locks .scroll Layout.scrollX ++
    separator g locks.leftSeparator Layout.leftSeparatorX ++
    separator g locks.rightSeparator Layout.rightSeparatorX

/-- The bars of hue, saturation, value and effect speed. -/
def lightingBars (lighting : Lighting) : List (Stroke ι) :=
  Layout.hueBar.strokes lighting.hue.toNat lightingScale ++
    Layout.satBar.strokes lighting.sat.toNat lightingScale ++
    Layout.valBar.strokes lighting.val.toNat lightingScale ++
    Layout.effectSpeedBar.strokes lighting.speed.toNat lightingScale

/-- The square of a bit of the effect number: erased, then filled if the bit is set and outlined
if not. -/
def effectSquare (lighting : Lighting) (bit : UInt8) : List (Stroke ι) :=
  let left := Layout.effectSquareX bit
  let top := Layout.effectIndex.y
  let right := left + Layout.squareSize - 1
  let bottom := top + Layout.squareSize - 1
  [.rect left top right bottom .black true,
    .rect left top right bottom .white (lighting.effectBit bit)]

/-- The squares of the effect number, from bit 0 on. -/
def effectIndex (lighting : Lighting) : List (Stroke ι) :=
  [0, 1, 2, 3, 4, 5].flatMap (effectSquare lighting)

/-- The bar of the typing speed. -/
def speed (scale wpm : UInt16) : List (Stroke ι) :=
  Layout.speedBar.strokes wpm.toNat scale.toNat

/-- The strokes of a part that shows a status. -/
def part (g : Gallery ι) (scale : UInt16) (status : Status) : Part → List (Stroke ι)
  | .background => erase :: decoration g
  | .defaultLayer => defaultLayer g status.defaultLayers
  | .layers => layers g status.layers
  | .locks => locks g status.locks
  | .lightingBars => lightingBars status.lighting
  | .effectIndex => effectIndex status.lighting
  | .speed => speed scale status.wpm

end Drawing

end StatusPanel
