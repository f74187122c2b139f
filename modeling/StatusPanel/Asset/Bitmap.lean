import StatusPanel.Byte

/-!
# Bitmaps

Pictures of one bit for each pixel, and their file format: the letters `KP`, width and height as
16-bit words with the low byte first, then the rows from top to bottom. A row is padded to whole
bytes, and the highest bit of a byte is its leftmost pixel.

## Main definitions

* `Bitmap`: a picture with at least one pixel
* `Bitmap.parse`: reads a file
* `Bitmap.blob`: writes a file
* `Bitmap.pixel`: whether a pixel is on
-/

namespace StatusPanel

/-- The bytes of a row of a number of pixels. -/
def rowBytes (width : UInt16) : Nat := (width.toNat + 7) / 8

/-- A picture of one bit for each pixel. -/
structure Bitmap where
  width : UInt16
  height : UInt16
  /-- The rows from top to bottom. -/
  data : Array UInt8
  width_ne : width ≠ 0
  height_ne : height ≠ 0
  size_data : data.size = rowBytes width * height.toNat
  deriving DecidableEq

namespace Bitmap

/-- The bytes of a row. -/
def stride (b : Bitmap) : Nat := rowBytes b.width

/-- The word of a low and a high byte. -/
def word (low high : UInt8) : UInt16 := low.toUInt16 ||| high.toUInt16 <<< 8

/-- The low and the high byte of a word. -/
def wordBytes (w : UInt16) : List UInt8 := [w.toUInt8, (w >>> 8).toUInt8]

/-- The picture of a size with given rows, if they are of the right length. -/
def ofRows? (width height : UInt16) (rows : List UInt8) : Option Bitmap :=
  if h : width ≠ 0 ∧ height ≠ 0 ∧ rows.length = rowBytes width * height.toNat then
    some ⟨width, height, rows.toArray, h.1, h.2.1, by simpa using h.2.2⟩
  else none

/-- Reads a file: `none` if its letters, its size or its length are wrong. -/
def parse : List UInt8 → Option Bitmap
  | k :: p :: w₀ :: w₁ :: h₀ :: h₁ :: rows =>
    if k = 0x4B ∧ p = 0x50 then ofRows? (word w₀ w₁) (word h₀ h₁) rows else none
  | _ => none

/-- The file of a size and rows. -/
def blob (width height : UInt16) (rows : List UInt8) : List UInt8 :=
  0x4B :: 0x50 :: (wordBytes width ++ wordBytes height ++ rows)

/-- The byte that holds a pixel lies in the data. -/
theorem index_lt (b : Bitmap) {x y : Nat} (hx : x < b.width.toNat) (hy : y < b.height.toNat) :
    y * b.stride + x / 8 < b.data.size := by
  have hs : x / 8 < b.stride := by unfold stride rowBytes; omega
  calc y * b.stride + x / 8 < y * b.stride + b.stride := Nat.add_lt_add_left hs _
    _ = (y + 1) * b.stride := (Nat.succ_mul ..).symm
    _ ≤ b.height.toNat * b.stride := Nat.mul_le_mul_right _ hy
    _ = b.data.size := by rw [b.size_data, stride, Nat.mul_comm]

/-- Whether a pixel is on. Pixels outside the picture are off. -/
def pixel (b : Bitmap) (x y : Nat) : Bool :=
  if h : x < b.width.toNat ∧ y < b.height.toNat then
    have := b.index_lt h.1 h.2
    Byte.bit b.data[y * b.stride + x / 8] (7 - x % 8)
  else false

end Bitmap

end StatusPanel
