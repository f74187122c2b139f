import StatusPanel.Byte

/-!
# The canvas

The picture of a panel of 128 by 64 pixels, in the panel's memory layout: eight pages of eight
rows, one byte for each column of a page, the lowest bit on top. The canvas remembers which pages
changed since they were sent.

## Main definitions

* `Canvas`: the bytes, and the pages to be sent
* `Canvas.pixel`, `Canvas.setPixel`: one pixel
* `Dot`, `Canvas.drawDots`: many pixels, anywhere in the plane
* `Canvas.page`: the bytes of a page
* `Canvas.isDirty`, `Canvas.markClean`: the pages to be sent

## Main results

* `Canvas.pixel_setPixel`, `Canvas.isDirty_setPixel`: what setting a pixel does
* `Canvas.bit_getElem_page`, `Canvas.bit_page`: the bytes of a page hold its pixels
-/

namespace StatusPanel

/-- The width of the panel. -/
def panelWidth : Nat := 128

/-- The height of the panel. -/
def panelHeight : Nat := 64

/-- A pixel of the plane with its new state. -/
structure Dot where
  x : Int
  y : Int
  on : Bool
  deriving DecidableEq, Repr

/-- The picture of a panel. -/
structure Canvas where
  /-- The bytes of page 0 from left to right, then those of page 1, and so on. -/
  bytes : Vector UInt8 1024
  /-- One bit for each page that is to be sent. -/
  dirty : UInt8

namespace Canvas

/-- The empty picture; every page is to be sent. -/
def blank : Canvas := ⟨Vector.replicate 1024 0, 0xFF⟩

/-- The place of a pixel's byte. -/
def index (x y : Nat) : Nat := y / 8 * 128 + x

theorem index_lt {x y : Nat} (h : x < panelWidth ∧ y < panelHeight) : index x y < 1024 := by
  simp only [panelWidth, panelHeight] at h
  unfold index
  omega

/-- Whether a pixel is on. Pixels outside the panel are off. -/
def pixel (c : Canvas) (x y : Nat) : Bool :=
  if h : x < panelWidth ∧ y < panelHeight then
    have hi := index_lt h
    Byte.bit c.bytes[index x y] (y % 8)
  else false

/-- Sets a pixel. Its page is to be sent if its byte changes. Pixels outside the panel are left
out. -/
def setPixel (c : Canvas) (x y : Nat) (on : Bool) : Canvas :=
  if h : x < panelWidth ∧ y < panelHeight then
    have hi := index_lt h
    let old := c.bytes[index x y]
    let new := Byte.setBit old (y % 8) on
    if new = old then c
    else ⟨c.bytes.set (index x y) new, Byte.setBit c.dirty (y / 8) true⟩
  else c

/-- Sets a pixel of the plane. -/
def drawDot (c : Canvas) (d : Dot) : Canvas :=
  if 0 ≤ d.x ∧ 0 ≤ d.y then c.setPixel d.x.toNat d.y.toNat d.on else c

/-- Sets pixels of the plane, in order. -/
def drawDots (c : Canvas) (dots : List Dot) : Canvas :=
  dots.foldl drawDot c

/-- The bytes of a page, from left to right. -/
def page (c : Canvas) (p : Fin 8) : List UInt8 :=
  List.ofFn fun x : Fin 128 => c.bytes[p.val * 128 + x.val]

/-- Whether a page is to be sent. -/
def isDirty (c : Canvas) (page : Nat) : Bool := Byte.bit c.dirty page

/-- Notes that a page was sent. -/
def markClean (c : Canvas) (page : Nat) : Canvas :=
  { c with dirty := Byte.setBit c.dirty page false }

/-! ## Pixels -/

@[simp] theorem pixel_blank (x y : Nat) : blank.pixel x y = false := by
  unfold pixel blank
  split <;> simp

theorem pixel_of_not {c : Canvas} {x y : Nat} (h : ¬(x < panelWidth ∧ y < panelHeight)) :
    c.pixel x y = false := by
  rw [pixel, dif_neg h]

theorem setPixel_of_not {c : Canvas} {x y : Nat} (on : Bool)
    (h : ¬(x < panelWidth ∧ y < panelHeight)) : c.setPixel x y on = c := by
  rw [setPixel, dif_neg h]

/-- Two pixels of one byte and one row of it are the same pixel. -/
theorem index_inj {x y u v : Nat} (h : x < panelWidth ∧ y < panelHeight)
    (k : u < panelWidth ∧ v < panelHeight) (hi : index x y = index u v) (hr : y % 8 = v % 8) :
    x = u ∧ y = v := by
  simp only [panelWidth, panelHeight, index] at *
  omega

/-- Setting a pixel of the panel sets that pixel and no other. -/
theorem pixel_setPixel {c : Canvas} {x y : Nat} (h : x < panelWidth ∧ y < panelHeight) (on : Bool)
    (u v : Nat) :
    (c.setPixel x y on).pixel u v = if u = x ∧ v = y then on else c.pixel u v := by
  have hi := index_lt h
  have h8 : y % 8 < 8 := Nat.mod_lt _ (by decide)
  by_cases k : u < panelWidth ∧ v < panelHeight
  · have ki := index_lt k
    have k8 : v % 8 < 8 := Nat.mod_lt _ (by decide)
    have key : ∀ bytes : Vector UInt8 1024, bytes = c.bytes.set (index x y)
        (Byte.setBit c.bytes[index x y] (y % 8) on) →
        Byte.bit bytes[index u v] (v % 8) = if u = x ∧ v = y then on else c.pixel u v := by
      rintro _ rfl
      rw [Vector.getElem_set, pixel, dif_pos k]
      by_cases he : index x y = index u v
      · rw [if_pos he, Byte.bit_setBit on h8 k8]
        by_cases hr : v % 8 = y % 8
        · obtain ⟨rfl, rfl⟩ := index_inj h k he hr.symm
          simp
        · have : ¬(u = x ∧ v = y) := fun hx => hr (by rw [hx.2])
          rw [if_neg hr, if_neg this]
          simp [he]
      · have : ¬(u = x ∧ v = y) := fun hx => he (by rw [hx.1, hx.2])
        rw [if_neg he, if_neg this]
    rw [pixel, dif_pos k]
    refine key _ ?_
    rw [setPixel, dif_pos h]
    by_cases hs : Byte.setBit c.bytes[index x y] (y % 8) on = c.bytes[index x y]
    · simp [hs]
    · simp [hs]
  · have : ¬(u = x ∧ v = y) := fun hx => k (hx.1 ▸ hx.2 ▸ h)
    rw [pixel_of_not k, if_neg this, pixel_of_not k]

/-- A pixel that is set to what it was leaves the canvas alone. -/
theorem setPixel_pixel (c : Canvas) (x y : Nat) : c.setPixel x y (c.pixel x y) = c := by
  by_cases h : x < panelWidth ∧ y < panelHeight
  · have h8 : y % 8 < 8 := Nat.mod_lt _ (by decide)
    rw [setPixel, dif_pos h, if_pos]
    rw [Byte.setBit_eq_self_iff _ h8, pixel, dif_pos h]
  · exact setPixel_of_not _ h

/-- Setting a pixel makes its page one to be sent exactly when the pixel changes. -/
theorem isDirty_setPixel {c : Canvas} {x y : Nat} (h : x < panelWidth ∧ y < panelHeight)
    (on : Bool) {p : Nat} (hp : p < 8) :
    (c.setPixel x y on).isDirty p = (c.isDirty p || (p = y / 8 && c.pixel x y != on)) := by
  have h8 : y % 8 < 8 := Nat.mod_lt _ (by decide)
  have hy : y / 8 < 8 := by
    simp only [panelHeight] at h
    omega
  have hi := index_lt h
  have hpx : c.pixel x y = Byte.bit c.bytes[index x y] (y % 8) := by
    rw [pixel, dif_pos h]
  by_cases hc : c.pixel x y = on
  · subst hc
    simp [setPixel_pixel]
  · rw [setPixel, dif_pos h, if_neg (by rwa [Byte.setBit_eq_self_iff _ h8, ← hpx])]
    simp only [isDirty]
    rw [Byte.bit_setBit true hy hp]
    by_cases hq : p = y / 8 <;> simp [hq, hc]

@[simp] theorem pixel_markClean (c : Canvas) (page x y : Nat) :
    (c.markClean page).pixel x y = c.pixel x y := rfl

theorem isDirty_markClean {c : Canvas} {p q : Nat} (hp : p < 8) (hq : q < 8) :
    (c.markClean p).isDirty q = (c.isDirty q && q != p) := by
  simp only [isDirty, markClean]
  rw [Byte.bit_setBit false hp hq]
  by_cases h : q = p <;> simp [h]

theorem length_page (c : Canvas) (p : Fin 8) : (c.page p).length = 128 := by
  rw [page, List.length_ofFn]

/-- The byte of a column of a page has the pixels of its rows as bits. -/
theorem bit_getElem_page (c : Canvas) (p : Fin 8) {x i : Nat} (hx : x < (c.page p).length)
    (hi : i < 8) : Byte.bit (c.page p)[x] i = c.pixel x (p.val * 8 + i) := by
  have hp := p.isLt
  have hcolumn : x < 128 := c.length_page p ▸ hx
  have h : x < panelWidth ∧ p.val * 8 + i < panelHeight := by
    simp only [panelWidth, panelHeight]
    omega
  have hd : (p.val * 8 + i) / 8 = p.val := by omega
  have hm : (p.val * 8 + i) % 8 = i := by omega
  rw [pixel, dif_pos h]
  simp only [index, hd, hm]
  exact congrArg (Byte.bit · i) (List.getElem_ofFn _)

theorem bit_page (c : Canvas) (p : Fin 8) {x i : Nat} (hx : x < 128) (hi : i < 8) :
    Byte.bit ((c.page p).getD x 0) i = c.pixel x (p.val * 8 + i) := by
  have hl : x < (c.page p).length := by rwa [length_page]
  rw [List.getD_eq_getElem?_getD, List.getElem?_eq_getElem hl, Option.getD_some,
    bit_getElem_page c p hl hi]

/-! ## Dots -/

@[simp] theorem drawDots_nil (c : Canvas) : c.drawDots [] = c := rfl

@[simp] theorem drawDots_cons (c : Canvas) (d : Dot) (ds : List Dot) :
    c.drawDots (d :: ds) = (c.drawDot d).drawDots ds := rfl

theorem drawDots_append (c : Canvas) (ds es : List Dot) :
    c.drawDots (ds ++ es) = (c.drawDots ds).drawDots es :=
  List.foldl_append

@[simp] theorem bytes_markClean (c : Canvas) (page : Nat) : (c.markClean page).bytes = c.bytes :=
  rfl

end Canvas

end StatusPanel
