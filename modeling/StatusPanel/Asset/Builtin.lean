import StatusPanel.Asset.Basic
import StatusPanel.Asset.Bitmap

/-!
# Built-in pictures

The files of the status screen's pictures. Mode glyphs are 48 by 16 pixels, lock icons 12 by 10,
separators 3 by 10, checkboxes 10 by 10, and the speed indicator 8 by 8.

## Main definitions

* `Builtin.table`: the file of every asset
* `Bitmap.load`: the picture of an asset in a table
-/

namespace StatusPanel

/-- The picture of an asset in a table of files: the first entry counts. -/
def Bitmap.load (table : List (Asset × List UInt8)) (asset : Asset) : Option Bitmap :=
  (table.lookup asset).bind Bitmap.parse

namespace Builtin

/-- The glyph of the Dvorak layer. -/
def modeDvorak : List UInt8 :=
  Bitmap.blob 48 16 [
    0xFF, 0xFF, 0xFF, 0xFF, 0xFF, 0xFF, 0x80, 0x00, 0x00, 0x00, 0x00, 0x01,
    0x80, 0x00, 0x00, 0x00, 0x00, 0x01, 0x80, 0x00, 0x00, 0x00, 0x00, 0x01,
    0x83, 0xC8, 0x9C, 0xF1, 0xC8, 0x81, 0x82, 0x28, 0xA2, 0x8A, 0x29, 0x01,
    0x82, 0x28, 0xA2, 0x8A, 0x2A, 0x01, 0x82, 0x28, 0xA2, 0xF3, 0xEC, 0x01,
    0x82, 0x28, 0xA2, 0xA2, 0x2A, 0x01, 0x82, 0x25, 0x22, 0x92, 0x29, 0x01,
    0x83, 0xC2, 0x1C, 0x8A, 0x28, 0x81, 0x80, 0x00, 0x00, 0x00, 0x00, 0x01,
    0x80, 0x00, 0x00, 0x00, 0x00, 0x01, 0x80, 0x00, 0x00, 0x00, 0x00, 0x01,
    0x80, 0x00, 0x00, 0x00, 0x00, 0x01, 0xFF, 0xFF, 0xFF, 0xFF, 0xFF, 0xFF]

/-- The glyph of the QWERTY layer. -/
def modeQwerty : List UInt8 :=
  Bitmap.blob 48 16 [
    0xFF, 0xFF, 0xFF, 0xFF, 0xFF, 0xFF, 0x80, 0x00, 0x00, 0x00, 0x00, 0x01,
    0x80, 0x00, 0x00, 0x00, 0x00, 0x01, 0x80, 0x00, 0x00, 0x00, 0x00, 0x01,
    0x81, 0xC8, 0xBE, 0xF3, 0xE8, 0x81, 0x82, 0x28, 0xA0, 0x88, 0x88, 0x81,
    0x82, 0x28, 0xA0, 0x88, 0x85, 0x01, 0x82, 0x2A, 0xBC, 0xF0, 0x82, 0x01,
    0x82, 0xAA, 0xA0, 0xA0, 0x82, 0x01, 0x82, 0x4A, 0xA0, 0x90, 0x82, 0x01,
    0x81, 0xA5, 0x3E, 0x88, 0x82, 0x01, 0x80, 0x00, 0x00, 0x00, 0x00, 0x01,
    0x80, 0x00, 0x00, 0x00, 0x00, 0x01, 0x80, 0x00, 0x00, 0x00, 0x00, 0x01,
    0x80, 0x00, 0x00, 0x00, 0x00, 0x01, 0xFF, 0xFF, 0xFF, 0xFF, 0xFF, 0xFF]

/-- The glyph of stenography. -/
def modeStenography : List UInt8 :=
  Bitmap.blob 48 16 [
    0xFF, 0xFF, 0xFF, 0xFF, 0xFF, 0xFF, 0x80, 0x00, 0x00, 0x00, 0x00, 0x01,
    0x80, 0x00, 0x00, 0x00, 0x00, 0x01, 0x80, 0x00, 0x00, 0x00, 0x00, 0x01,
    0x80, 0x3D, 0xF7, 0xD1, 0x38, 0x01, 0x80, 0x40, 0x44, 0x19, 0x44, 0x01,
    0x80, 0x40, 0x44, 0x15, 0x44, 0x01, 0x80, 0x38, 0x47, 0x93, 0x44, 0x01,
    0x80, 0x04, 0x44, 0x11, 0x44, 0x01, 0x80, 0x04, 0x44, 0x11, 0x44, 0x01,
    0x80, 0x78, 0x47, 0xD1, 0x38, 0x01, 0x80, 0x00, 0x00, 0x00, 0x00, 0x01,
    0x80, 0x00, 0x00, 0x00, 0x00, 0x01, 0x80, 0x00, 0x00, 0x00, 0x00, 0x01,
    0x80, 0x00, 0x00, 0x00, 0x00, 0x01, 0xFF, 0xFF, 0xFF, 0xFF, 0xFF, 0xFF]

/-- The icon of the effect speed. -/
def speedIndicator : List UInt8 :=
  Bitmap.blob 8 8 [
    0x18, 0x3C, 0x7E, 0x18, 0x18, 0x7E, 0x3C, 0x18]

/-- The ticked checkbox. -/
def checkboxYes : List UInt8 :=
  Bitmap.blob 10 10 [
    0xFF, 0xC0, 0x80, 0x40, 0xA1, 0x40, 0x92, 0x40, 0x8C, 0x40,
    0x8C, 0x40, 0x92, 0x40, 0xA1, 0x40, 0x80, 0x40, 0xFF, 0xC0]

/-- The empty checkbox. -/
def checkboxNo : List UInt8 :=
  Bitmap.blob 10 10 [
    0xFF, 0xC0, 0x80, 0x40, 0x80, 0x40, 0x80, 0x40, 0x80, 0x40,
    0x80, 0x40, 0x80, 0x40, 0x80, 0x40, 0x80, 0x40, 0xFF, 0xC0]

/-- The caps icon, on. -/
def capsOn : List UInt8 :=
  Bitmap.blob 12 10 [
    0xFF, 0xF0, 0xFF, 0xF0, 0xCA, 0x70, 0xB4, 0xB0, 0xB0, 0x70,
    0xB4, 0xF0, 0xC4, 0xF0, 0xFF, 0xF0, 0xFF, 0xF0, 0xFF, 0xF0]

/-- The caps icon, off. -/
def capsOff : List UInt8 :=
  Bitmap.blob 12 10 [
    0xFF, 0xF0, 0x80, 0x10, 0xB5, 0x90, 0xCB, 0x50, 0xCF, 0x90,
    0xCB, 0x10, 0xBB, 0x10, 0x80, 0x10, 0x80, 0x10, 0xFF, 0xF0]

/-- The num icon, on. -/
def numOn : List UInt8 :=
  Bitmap.blob 12 10 [
    0xFF, 0xF0, 0xFF, 0xF0, 0x94, 0xB0, 0xA4, 0x30, 0xA4, 0x30,
    0xA4, 0xB0, 0xA0, 0xB0, 0xFF, 0xF0, 0xFF, 0xF0, 0xFF, 0xF0]

/-- The num icon, off. -/
def numOff : List UInt8 :=
  Bitmap.blob 12 10 [
    0xFF, 0xF0, 0x80, 0x10, 0xEB, 0x50, 0xDB, 0xD0, 0xDB, 0xD0,
    0xDB, 0x50, 0xDF, 0x50, 0x80, 0x10, 0x80, 0x10, 0xFF, 0xF0]

/-- The scroll icon, on. -/
def scrollOn : List UInt8 :=
  Bitmap.blob 12 10 [
    0xFF, 0xF0, 0xFF, 0xF0, 0xC8, 0x70, 0xB6, 0xB0, 0xD6, 0x70,
    0xE6, 0xB0, 0x98, 0xB0, 0xFF, 0xF0, 0xFF, 0xF0, 0xFF, 0xF0]

/-- The scroll icon, off. -/
def scrollOff : List UInt8 :=
  Bitmap.blob 12 10 [
    0xFF, 0xF0, 0x80, 0x10, 0xB7, 0x90, 0xC9, 0x50, 0xA9, 0x90,
    0x99, 0x50, 0xE7, 0x50, 0x80, 0x10, 0x80, 0x10, 0xFF, 0xF0]

/-- The separator between two icons that are off. -/
def separatorOffOff : List UInt8 :=
  Bitmap.blob 3 10 [
    0x40, 0x00, 0x00, 0x00, 0x00, 0x00, 0x00, 0x00, 0x00, 0x40]

/-- The separator between an icon that is on and one that is off. -/
def separatorOnOff : List UInt8 :=
  Bitmap.blob 3 10 [
    0xC0, 0x80, 0x80, 0x80, 0x80, 0x80, 0x80, 0x80, 0x80, 0xC0]

/-- The separator between an icon that is off and one that is on. -/
def separatorOffOn : List UInt8 :=
  Bitmap.blob 3 10 [
    0x60, 0x20, 0x20, 0x20, 0x20, 0x20, 0x20, 0x20, 0x20, 0x60]

/-- The separator between two icons that are on. -/
def separatorOnOn : List UInt8 :=
  Bitmap.blob 3 10 [
    0xE0, 0xA0, 0xA0, 0xA0, 0xA0, 0xA0, 0xA0, 0xA0, 0xA0, 0xE0]

/-- The file of every asset, in table order. -/
def table : List (Asset × List UInt8) :=
  [(.modeDvorak, modeDvorak),
    (.modeQwerty, modeQwerty),
    (.modeStenography, modeStenography),
    (.speedIndicator, speedIndicator),
    (.checkboxYes, checkboxYes),
    (.checkboxNo, checkboxNo),
    (.capsOn, capsOn),
    (.capsOff, capsOff),
    (.numOn, numOn),
    (.numOff, numOff),
    (.scrollOn, scrollOn),
    (.scrollOff, scrollOff),
    (.separatorOffOff, separatorOffOff),
    (.separatorOnOff, separatorOnOff),
    (.separatorOffOn, separatorOffOn),
    (.separatorOnOn, separatorOnOn)]

/-- The table names every asset once, in order. -/
theorem table_assets : table.map Prod.fst = Asset.all := rfl

end Builtin

end StatusPanel
