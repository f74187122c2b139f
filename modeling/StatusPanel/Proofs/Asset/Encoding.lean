import Mathlib
import StatusPanel.Asset.Bitmap

/-!
# Encoded pictures

A file is read exactly if it has the form of one, and reading loses nothing: width, height and rows
written again are the file. In the other direction, any matrix of cells can be written, its rows
padded to whole bytes with whatever bits, and the picture that is read has the size of the matrix
and the cells as its pixels.

## Main definitions

* `Bitmap.IsFile`: whether bytes have the form of a file
* `Bitmap.packByte`, `Bitmap.packRow`: eight cells in a byte, and a padded row of cells
* `Bitmap.encode`: the file of a matrix of cells

## Main results

* `Bitmap.parse_eq_some_iff`: what is read from a file
* `Bitmap.exists_parse_iff`: which files are read
* `Bitmap.pixel_of_parse_encode`: the pixels of an encoded matrix
* `Bitmap.parse_undoes_encoding`: reading and writing undo each other
-/

namespace StatusPanel.Bitmap

/-! ## Words -/

theorem toNat_word (low high : UInt8) : (word low high).toNat = low.toNat + 256 * high.toNat := by
  have hlow := low.toNat_lt
  have hhigh := high.toNat_lt
  -- the high byte is shifted past all bits of the low one
  have hshift : high.toNat <<< 8 % 65536 = 2 ^ 8 * high.toNat := by
    rw [Nat.shiftLeft_eq, Nat.mod_eq_of_lt (by omega), Nat.mul_comm]
  have hor : low.toNat ||| 2 ^ 8 * high.toNat = 2 ^ 8 * high.toNat + low.toNat := by
    rw [Nat.or_comm, Nat.two_pow_add_eq_or_of_lt (by omega)]
  simp only [word, UInt16.toNat_or, UInt8.toNat_toUInt16, UInt16.toNat_shiftLeft]
  show low.toNat ||| high.toNat <<< 8 % 65536 = _
  rw [hshift, hor]
  omega

theorem wordBytes_word (low high : UInt8) : wordBytes (word low high) = [low, high] := by
  have hlow := low.toNat_lt
  have hhigh := high.toNat_lt
  have hfst : (word low high).toUInt8 = low := by
    rw [← UInt8.toNat_inj, UInt16.toNat_toUInt8, toNat_word]
    omega
  have hsnd : (word low high >>> 8).toUInt8 = high := by
    rw [← UInt8.toNat_inj, UInt16.toNat_toUInt8, UInt16.toNat_shiftRight, toNat_word]
    show (low.toNat + 256 * high.toNat) >>> 8 % 256 = high.toNat
    rw [Nat.shiftRight_eq_div_pow]
    omega
  rw [wordBytes, hfst, hsnd]

theorem word_bytes (w : UInt16) : word w.toUInt8 (w >>> 8).toUInt8 = w := by
  have hw := w.toNat_lt
  rw [← UInt16.toNat_inj, toNat_word, UInt16.toNat_toUInt8, UInt16.toNat_toUInt8,
    UInt16.toNat_shiftRight]
  show w.toNat % 256 + 256 * (w.toNat >>> 8 % 256) = w.toNat
  rw [Nat.shiftRight_eq_div_pow]
  omega

theorem rowBytes_eq (width : UInt16) : rowBytes width = width.toNat ⌈/⌉ 8 := rfl

/-- The bytes of any picture can be counted, and found, by a word of 32 bits. -/
theorem size_data_lt (b : Bitmap) : b.data.size < 2 ^ 32 := by
  have hwidth := b.width.toNat_lt
  have hheight := b.height.toNat_lt
  have hrow : rowBytes b.width ≤ 2 ^ 13 := by
    unfold rowBytes
    omega
  calc b.data.size = rowBytes b.width * b.height.toNat := b.size_data
    _ ≤ 2 ^ 13 * 2 ^ 16 := Nat.mul_le_mul hrow (by omega)
    _ < 2 ^ 32 := by decide

/-! ## Files that are read -/

/-- Whether bytes have the form of a file: two letters, width and height as words of two bytes, the
low one first, neither of them zero, and as many whole bytes for each row as its cells need. -/
def IsFile (bytes : List UInt8) : Prop :=
  ∃ (w₀ w₁ h₀ h₁ : UInt8) (rows : List UInt8),
    bytes = 'K'.toUInt8 :: 'P'.toUInt8 :: w₀ :: w₁ :: h₀ :: h₁ :: rows ∧
      let width := w₀.toNat + 256 * w₁.toNat
      let height := h₀.toNat + 256 * h₁.toNat
      0 < width ∧ 0 < height ∧ rows.length = (width ⌈/⌉ 8) * height

theorem ofRows?_eq_some_iff {width height : UInt16} {rows : List UInt8} {b : Bitmap} :
    ofRows? width height rows = some b ↔
      width = b.width ∧ height = b.height ∧ rows = b.data.toList := by
  constructor
  · intro h
    unfold ofRows? at h
    split at h
    case isTrue =>
      obtain rfl := Option.some.inj h
      exact ⟨rfl, rfl, rfl⟩
    case isFalse => cases h
  · rintro ⟨rfl, rfl, rfl⟩
    have hrows : b.width ≠ 0 ∧ b.height ≠ 0 ∧
        b.data.toList.length = rowBytes b.width * b.height.toNat :=
      ⟨b.width_ne, b.height_ne, b.size_data⟩
    rw [ofRows?, dif_pos hrows]

theorem exists_ofRows?_iff {width height : UInt16} {rows : List UInt8} :
    (∃ b, ofRows? width height rows = some b) ↔
      width ≠ 0 ∧ height ≠ 0 ∧ rows.length = rowBytes width * height.toNat := by
  unfold ofRows?
  split
  case isTrue h => exact iff_of_true ⟨_, rfl⟩ h
  case isFalse h => exact iff_of_false (fun ⟨_, hb⟩ => nomatch hb) h

theorem parse_cons {k p w₀ w₁ h₀ h₁ : UInt8} {rows : List UInt8} {b : Bitmap} :
    parse (k :: p :: w₀ :: w₁ :: h₀ :: h₁ :: rows) = some b ↔
      (k = 0x4B ∧ p = 0x50) ∧ ofRows? (word w₀ w₁) (word h₀ h₁) rows = some b := by
  rw [parse]
  split
  case isTrue h => exact (and_iff_right h).symm
  case isFalse h => exact iff_of_false nofun fun hb => h hb.1

theorem parse_blob (width height : UInt16) (rows : List UInt8) :
    parse (blob width height rows) = ofRows? width height rows := by
  show parse (0x4B :: 0x50 :: _ :: _ :: _ :: _ :: rows) = _
  rw [parse, if_pos ⟨rfl, rfl⟩, word_bytes, word_bytes]

/-- **What is read** from a file is the picture whose width, height and rows make up the file. -/
theorem parse_eq_some_iff {bytes : List UInt8} {b : Bitmap} :
    parse bytes = some b ↔ blob b.width b.height b.data.toList = bytes := by
  constructor
  · intro h
    unfold parse at h
    split at h
    case h_1 k p w₀ w₁ h₀ h₁ rows =>
      obtain ⟨⟨rfl, rfl⟩, hrows⟩ := parse_cons.1 h
      obtain ⟨hwidth, hheight, hdata⟩ := ofRows?_eq_some_iff.1 hrows
      rw [blob, ← hwidth, ← hheight, ← hdata, wordBytes_word, wordBytes_word]
      rfl
    case h_2 => cases h
  · rintro rfl
    rw [parse_blob]
    exact ofRows?_eq_some_iff.2 ⟨rfl, rfl, rfl⟩

theorem word_ne_zero_iff {low high : UInt8} :
    word low high ≠ 0 ↔ 0 < low.toNat + 256 * high.toNat := by
  rw [← toNat_word, Nat.pos_iff_ne_zero, Ne, ← UInt16.toNat_inj]
  rfl

/-- **Which files are read**: those that have the form of one. -/
theorem exists_parse_iff {bytes : List UInt8} : (∃ b, parse bytes = some b) ↔ IsFile bytes := by
  constructor
  · rintro ⟨b, hb⟩
    unfold parse at hb
    split at hb
    case h_1 k p w₀ w₁ h₀ h₁ rows =>
      obtain ⟨⟨rfl, rfl⟩, hrows⟩ := parse_cons.1 hb
      obtain ⟨hwidth, hheight, hlength⟩ := exists_ofRows?_iff.1 ⟨b, hrows⟩
      rw [rowBytes_eq, toNat_word, toNat_word] at hlength
      exact ⟨w₀, w₁, h₀, h₁, rows, rfl, word_ne_zero_iff.1 hwidth, word_ne_zero_iff.1 hheight,
        hlength⟩
    case h_2 => cases hb
  · rintro ⟨w₀, w₁, h₀, h₁, rows, rfl, hwidth, hheight, hlength⟩
    rw [← toNat_word, ← toNat_word, ← rowBytes_eq] at hlength
    obtain ⟨b, hb⟩ := exists_ofRows?_iff.2
      ⟨word_ne_zero_iff.2 hwidth, word_ne_zero_iff.2 hheight, hlength⟩
    exact ⟨b, parse_cons.2 ⟨⟨rfl, rfl⟩, hb⟩⟩

/-! ## Pixels -/

/-- A pixel inside the picture is a bit of a byte of the data. -/
theorem exists_pixel_eq_bit (b : Bitmap) {x y : Nat} (hx : x < b.width.toNat)
    (hy : y < b.height.toNat) :
    ∃ byte, b.data[y * b.stride + x / 8]? = some byte ∧
      b.pixel x y = Byte.bit byte (7 - x % 8) := by
  have hindex := b.index_lt hx hy
  exact ⟨_, Array.getElem?_eq_getElem hindex, dif_pos ⟨hx, hy⟩⟩

theorem pixel_outside (b : Bitmap) {x y : Nat} (h : ¬(x < b.width.toNat ∧ y < b.height.toNat)) :
    b.pixel x y = false := dif_neg h

/-! ## Encoding a matrix -/

/-- A byte of eight cells; the leftmost is its highest bit. -/
def packByte (cells : Fin 8 → Bool) : UInt8 := UInt8.ofNat (Nat.ofBits fun i => cells i.rev)

/-- A row of cells, and padding behind its last cell. -/
def padded {width : Nat} (row : Fin width → Bool) (padding : Nat → Bool) (x : Nat) : Bool :=
  if h : x < width then row ⟨x, h⟩ else padding x

/-- The bytes of a row of cells, the last one filled up with padding. -/
def packRow {width : Nat} (row : Fin width → Bool) (padding : Nat → Bool) : List UInt8 :=
  List.ofFn fun j : Fin (width ⌈/⌉ 8) => packByte fun i => padded row padding (8 * j + i)

/-- The file of a matrix of cells, each row with padding of its own. -/
def encode (width height : UInt16) (cells : Fin height.toNat → Fin width.toNat → Bool)
    (padding : Nat → Nat → Bool) : List UInt8 :=
  blob width height (List.ofFn fun y => packRow (cells y) (padding y)).flatten

theorem bit_packByte (cells : Fin 8 → Bool) (i : Fin 8) :
    Byte.bit (packByte cells) (7 - i) = cells i := by
  have hvalue : (packByte cells).toNat = Nat.ofBits fun i => cells i.rev := by
    rw [packByte, UInt8.toNat_ofNat', Nat.mod_eq_of_lt (Nat.ofBits_lt_two_pow _)]
  have hrev : Fin.rev ⟨7 - i, by omega⟩ = i := Fin.ext (by simp only [Fin.val_rev]; omega)
  rw [Byte.bit, hvalue, Nat.testBit_ofBits_lt _ _ (by omega), hrev]

/-- Lists of one length behind one another: the place of an element of one of them. -/
theorem getElem?_flatten_ofFn {α : Type} {m n : Nat} (f : Fin m → Fin n → α) (i : Fin m)
    (j : Fin n) : (List.ofFn fun i => List.ofFn (f i)).flatten[i * n + j]? = some (f i j) := by
  induction m with
  | zero => exact i.elim0
  | succ m ih =>
    rw [List.ofFn_succ, List.flatten_cons]
    cases i using Fin.cases with
    | zero =>
      have hfirst : (0 : Nat) * n + j < (List.ofFn (f 0)).length := by simp
      rw [Fin.val_zero, List.getElem?_append_left hfirst, Nat.zero_mul, Nat.zero_add,
        List.getElem?_ofFn, dif_pos j.isLt]
    | succ i =>
      have hplace : (i + 1) * n + j = (List.ofFn (f 0)).length + (i * n + j) := by
        rw [List.length_ofFn, Nat.succ_mul]
        omega
      rw [Fin.val_succ, hplace, List.getElem?_append_right (Nat.le_add_right _ _),
        Nat.add_sub_cancel_left]
      exact ih (fun i => f i.succ) i

section

variable {width height : UInt16} (cells : Fin height.toNat → Fin width.toNat → Bool)
  (padding : Nat → Nat → Bool)

/-- An encoded matrix is a file of its size. -/
theorem exists_parse_encode (hwidth : width ≠ 0) (hheight : height ≠ 0) :
    ∃ b, parse (encode width height cells padding) = some b ∧ b.width = width ∧
      b.height = height := by
  have hlength : (List.ofFn fun y => packRow (cells y) (padding y)).flatten.length =
      rowBytes width * height.toNat := by
    simp [packRow, List.length_flatten, Function.comp_def, rowBytes_eq, Nat.mul_comm]
  obtain ⟨b, hb⟩ := exists_ofRows?_iff.2 ⟨hwidth, hheight, hlength⟩
  obtain ⟨hw, hh, -⟩ := ofRows?_eq_some_iff.1 hb
  exact ⟨b, (parse_blob width height _).trans hb, hw.symm, hh.symm⟩

variable {cells padding}

/-- **The pixels of an encoded matrix** are its cells, whatever the padding is. -/
theorem pixel_of_parse_encode {b : Bitmap} (hb : parse (encode width height cells padding) = some b)
    (y : Fin height.toNat) (x : Fin width.toNat) : b.pixel x y = cells y x := by
  rw [encode, parse_blob] at hb
  obtain ⟨rfl, rfl, hdata⟩ := ofRows?_eq_some_iff.1 hb
  have hj : x / 8 < b.width.toNat ⌈/⌉ 8 := by
    have hx := x.isLt
    rw [Nat.ceilDiv_eq_add_pred_div]
    omega
  obtain ⟨byte, hbyte, hpixel⟩ := b.exists_pixel_eq_bit x.isLt y.isLt
  -- the byte at the pixel's place is the one packed from its row
  have hplace := getElem?_flatten_ofFn (fun y j => packByte fun i =>
    padded (cells y) (padding y) (8 * (j : Fin (b.width.toNat ⌈/⌉ 8)) + i)) y ⟨x / 8, hj⟩
  change (List.ofFn fun y => packRow (cells y) (padding y)).flatten[y * b.stride + x / 8]? = _
    at hplace
  rw [hdata, Array.getElem?_toList, hbyte] at hplace
  have hcolumn : 8 * (x.val / 8) + x.val % 8 = x := Nat.div_add_mod x.val 8
  rw [hpixel, Option.some.inj hplace]
  refine (bit_packByte _ ⟨x % 8, Nat.mod_lt _ (by decide)⟩).trans ?_
  dsimp only
  rw [hcolumn, padded, dif_pos x.isLt]

end

/-- **Reading and writing undo each other.** Exactly the files are read; width, height and rows of
what was read make up the file again, each pixel inside is a bit of a byte of the rows and those
outside are off. In the other direction, every matrix that is not empty is encoded as a file, of
which its size and its cells are read, whatever bits fill up its rows. -/
theorem parse_undoes_encoding :
    (∀ bytes : List UInt8, (∃ b, parse bytes = some b) ↔ IsFile bytes) ∧
      (∀ (bytes : List UInt8) (b : Bitmap), parse bytes = some b →
        blob b.width b.height b.data.toList = bytes ∧ b.data.size < 2 ^ 32 ∧
          ∀ x y : Nat,
            (x < b.width.toNat ∧ y < b.height.toNat →
              ∃ byte, b.data[y * b.stride + x / 8]? = some byte ∧
                b.pixel x y = Byte.bit byte (7 - x % 8)) ∧
            (¬(x < b.width.toNat ∧ y < b.height.toNat) → b.pixel x y = false)) ∧
      ∀ (width height : UInt16), width ≠ 0 → height ≠ 0 →
        ∀ (cells : Fin height.toNat → Fin width.toNat → Bool) (padding : Nat → Nat → Bool),
          ∃ b, parse (encode width height cells padding) = some b ∧ b.width = width ∧
            b.height = height ∧
            ∀ (y : Fin height.toNat) (x : Fin width.toNat), b.pixel x y = cells y x := by
  refine ⟨fun _ => exists_parse_iff, ?_, ?_⟩
  · intro bytes b hb
    refine ⟨parse_eq_some_iff.1 hb, b.size_data_lt, fun x y => ⟨?_, b.pixel_outside⟩⟩
    rintro ⟨hx, hy⟩
    exact b.exists_pixel_eq_bit hx hy
  · intro width height hwidth hheight cells padding
    obtain ⟨b, hb, hsize⟩ := exists_parse_encode cells padding hwidth hheight
    exact ⟨b, hb, hsize.1, hsize.2, fun y x => pixel_of_parse_encode hb y x⟩

/-- Two rows of ten cells, of which every second is on. -/
def checkered (y : Fin 2) (x : Fin 10) : Bool := (x + y : Nat) % 2 = 0

/-- Each row fills one byte and two bits of another, whose other six bits are all set. -/
theorem parse_encode_checkered :
    (10 : UInt16) ≠ 0 ∧ (2 : UInt16) ≠ 0 ∧
      encode 10 2 checkered (fun _ _ => true) =
        [0x4B, 0x50, 10, 0, 2, 0, 0xAA, 0xBF, 0x55, 0x7F] ∧
      ∃ b, parse [0x4B, 0x50, 10, 0, 2, 0, 0xAA, 0xBF, 0x55, 0x7F] = some b ∧ b.width = 10 ∧
        b.height = 2 ∧ (∀ (y : Fin 2) (x : Fin 10), b.pixel x y = checkered y x) ∧
        b.pixel 10 0 = false := by
  obtain ⟨-, hread, hencode⟩ := parse_undoes_encoding
  have hbytes : encode 10 2 checkered (fun _ _ => true) =
      [0x4B, 0x50, 10, 0, 2, 0, 0xAA, 0xBF, 0x55, 0x7F] := by decide
  obtain ⟨b, hb, hwidth, hheight, hpixel⟩ :=
    hencode 10 2 (by decide) (by decide) checkered fun _ _ => true
  rw [hbytes] at hb
  -- behind the last cell of a row the picture is off, though the bit is set
  have houtside : ¬((10 : Nat) < b.width.toNat ∧ (0 : Nat) < b.height.toNat) := by
    rw [hwidth]
    exact fun h => absurd h.1 (by decide)
  obtain ⟨-, -, hpixels⟩ := hread _ b hb
  exact ⟨by decide, by decide, hbytes, b, hb, hwidth, hheight, hpixel, (hpixels 10 0).2 houtside⟩

end StatusPanel.Bitmap
