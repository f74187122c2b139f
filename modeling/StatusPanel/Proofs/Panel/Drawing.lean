import StatusPanel.Proofs.Screen.Ink

/-!
# Draws

What a draw does to the picture of a panel. A picture is copied pixel by pixel and a rectangle
covered or outlined, whatever offset its edges have to the bytes; every other pixel is as before.
Besides the pages that were to be sent exactly those with a changed byte are: a stroke sets each
pixel to what it ends up as, so no byte is changed and changed back on the way.

A call that is refused changes nothing at all.

## Main definitions

* `Stroke.Covers`: the pixels that a stroke covers
* `Canvas.Drawn`: a canvas with some pixels drawn over
* `Panel.Draws`: a draw that is refused, or draws over what its stroke covers

## Main results

* `Canvas.isDirty_drawDots_iff`: the pages that dots make ones to be sent
* `Canvas.drawn_drawDots`: a stroke draws over what it covers
* `Panel.draw_exactly`: every draw of every panel
-/

namespace StatusPanel

namespace Canvas

/-! ## Pages and pixels -/

/-- A page is the same on two canvases when its pixels are. -/
theorem page_eq_iff {c d : Canvas} {page : Fin 8} :
    c.page page = d.page page ↔
      ∀ x y, OnPanel x y → y / 8 = page.val → c.pixel x y = d.pixel x y := by
  constructor
  · intro heq x y hon hpage
    have hrow : page.val * 8 + y % 8 = y := by omega
    have hbits := c.bit_page page hon.1 (Nat.mod_lt y (by decide : 0 < 8))
    rw [heq, d.bit_page page hon.1 (Nat.mod_lt y (by decide)), hrow] at hbits
    exact hbits.symm
  · intro hpixels
    refine List.ext_getElem ((c.length_page page).trans (d.length_page page).symm) ?_
    intro x hc hd
    -- bit by bit: each bit of a byte is a pixel of the page
    refine Byte.ext_bit fun i hi => ?_
    rw [c.bit_getElem_page page hc hi, d.bit_getElem_page page hd hi]
    exact hpixels x _ (onPanel_of_page page (c.length_page page ▸ hc) hi) (by omega)

theorem page_ne_iff {c d : Canvas} {page : Fin 8} :
    c.page page ≠ d.page page ↔
      ∃ x y, OnPanel x y ∧ y / 8 = page.val ∧ c.pixel x y ≠ d.pixel x y := by
  rw [Ne, page_eq_iff]
  simp only [Classical.not_forall, exists_prop, Ne]

/-! ## The pages that dots make ones to be sent -/

/-- Dots that are each drawn as the pixel ends up make the pages ones to be sent that have a
changed byte. -/
theorem isDirty_drawDots_iff {c : Canvas} {ds : List Dot}
    (hlast : ∀ d ∈ ds, ∀ x y : Nat, OnPanel x y → d.x = x ∧ d.y = y →
      (c.drawDots ds).pixel x y = d.on) {page : Fin 8} :
    (c.drawDots ds).isDirty page = true ↔
      c.isDirty page = true ∨ (c.drawDots ds).page page ≠ c.page page := by
  rw [page_ne_iff]
  -- Induction on the dots: the first one changes its pixel to what it ends up as, or not at all.
  induction ds generalizing c with
  | nil => simp
  | cons d ds ih =>
    rw [drawDots_cons] at hlast ⊢
    rw [ih fun e he => hlast e (List.mem_cons_of_mem d he), isDirty_drawDot_iff page.isLt,
      or_assoc]
    refine or_congr_right ⟨?_, ?_⟩
    · rintro (⟨x, y, hon, hpage, hat, hne⟩ | ⟨x, y, hon, hpage, hne⟩)
      · refine ⟨x, y, hon, hpage, ?_⟩
        rw [hlast d List.mem_cons_self x y hon hat]
        exact hne.symm
      · refine ⟨x, y, hon, hpage, fun heq => hne ?_⟩
        rw [pixel_drawDot c d hon]
        split
        case isTrue hat => exact hlast d List.mem_cons_self x y hon hat
        case isFalse => exact heq
    · rintro ⟨x, y, hon, hpage, hne⟩
      by_cases hat : d.x = x ∧ d.y = y
      · rw [hlast d List.mem_cons_self x y hon hat] at hne
        exact Or.inl ⟨x, y, hon, hpage, hat, hne.symm⟩
      · refine Or.inr ⟨x, y, hon, hpage, ?_⟩
        rwa [pixel_drawDot c d hon, if_neg hat]

end Canvas

/-! ## What a stroke covers -/

namespace Stroke

/-- Whether a stroke covers a pixel: all pixels of a picture, those of a filled rectangle, and those
of the edges of an outline. -/
def Covers : Stroke Bitmap → Nat → Nat → Prop
  | .image left top b, x, y =>
    left.toNat ≤ x ∧ x < left.toNat + b.width.toNat ∧
      top.toNat ≤ y ∧ y < top.toNat + b.height.toNat
  | .rect left top right bottom _ filled, x, y =>
    left.toNat ≤ x ∧ x ≤ right.toNat ∧ top.toNat ≤ y ∧ y ≤ bottom.toNat ∧
      (filled = true ∨ x = left.toNat ∨ x = right.toNat ∨ y = top.toNat ∨ y = bottom.toNat)

theorem ink_eq_none_iff {s : Stroke Bitmap} {x y : Nat} : s.ink x y = none ↔ ¬s.Covers x y := by
  cases s with
  | image left top b => simp only [ink, Covers, ite_eq_right_iff, reduceCtorEq, imp_false]
  | rect left top right bottom color filled =>
    simp only [ink, Covers, ite_eq_right_iff, reduceCtorEq, imp_false]

theorem fits_image_iff {left top : UInt16} {b : Bitmap} :
    (image left top b).fits = true ↔
      left.toNat + b.width.toNat ≤ 128 ∧ top.toNat + b.height.toNat ≤ 64 := by
  simp only [fits, Bool.and_eq_true, decide_eq_true_eq]
  rfl

theorem fits_rect_iff {left top right bottom : UInt16} {color : Color} {filled : Bool} :
    (rect left top right bottom color filled : Stroke Bitmap).fits = true ↔
      left ≤ right ∧ top ≤ bottom ∧ right.toNat < 128 ∧ bottom.toNat < 64 := by
  simp only [fits, Bool.and_eq_true, decide_eq_true_eq, and_assoc]
  rfl

/-- What a stroke covers lies on the panel if the stroke does. -/
theorem onPanel_of_covers {s : Stroke Bitmap} (hs : s.fits = true) {x y : Nat}
    (h : s.Covers x y) : OnPanel x y := by
  cases s with
  | image left top b =>
    rw [fits_image_iff] at hs
    obtain ⟨-, hx, -, hy⟩ := h
    exact ⟨Nat.lt_of_lt_of_le hx hs.1, Nat.lt_of_lt_of_le hy hs.2⟩
  | rect left top right bottom color filled =>
    rw [fits_rect_iff] at hs
    obtain ⟨-, hx, -, hy, -⟩ := h
    exact ⟨Nat.lt_of_le_of_lt hx hs.2.2.1, Nat.lt_of_le_of_lt hy hs.2.2.2⟩

end Stroke

namespace Canvas

/-- A canvas with some pixels drawn over: the others are as before, and besides the pages that were
to be sent exactly those with a changed byte are. -/
structure Drawn (c d : Canvas) (Covers : Nat → Nat → Prop) : Prop where
  pixel {x y : Nat} : ¬Covers x y → d.pixel x y = c.pixel x y
  isDirty_iff (page : Fin 8) :
    d.isDirty page = true ↔ c.isDirty page = true ∨ d.page page ≠ c.page page

/-- A stroke draws over what it covers. -/
theorem drawn_drawDots (c : Canvas) (s : Stroke Bitmap) :
    Drawn c (c.drawDots s.dots) s.Covers where
  pixel {x y} hnot := by
    by_cases hon : OnPanel x y
    · rw [pixel_drawStroke c s hon, Stroke.ink_eq_none_iff.2 hnot, Option.getD_none]
    · rw [pixel_of_not hon, pixel_of_not hon]
  isDirty_iff page := by
    -- each dot of a stroke is its ink, which is what the pixel ends up as
    refine isDirty_drawDots_iff ?_
    rintro ⟨u, v, on⟩ hd x y hon ⟨rfl, rfl⟩
    rw [pixel_drawStroke c s hon, Stroke.mem_dots_iff.1 hd, Option.getD_some]

/-- A stroke that lies on the panel sets its dots. -/
theorem pixel_drawDots_of_mem (c : Canvas) {s : Stroke Bitmap} (hs : s.fits = true) {x y : Nat}
    {on : Bool} (hmem : ⟨x, y, on⟩ ∈ s.dots) : (c.drawDots s.dots).pixel x y = on := by
  have hink := Stroke.mem_dots_iff.1 hmem
  have hcovers : s.Covers x y := Classical.byContradiction fun hnot => by
    rw [Stroke.ink_eq_none_iff.2 hnot] at hink
    cases hink
  rw [pixel_drawStroke c s (Stroke.onPanel_of_covers hs hcovers), hink, Option.getD_some]

end Canvas

/-! ## Draws of a panel -/

namespace Panel

/-- A draw that is refused exactly if the stroke is `Off`, and changes nothing then. Otherwise it
draws over what the stroke covers, which is then as it is to be. -/
structure Draws (p : Panel) (s : Stroke Bitmap) (Off : Prop) (AsDrawn : Canvas → Prop) : Prop where
  refused_iff : (p.draw s).2 = .error .invalidCoordinates ↔ Off
  unchanged : Off → (p.draw s).1 = p
  drawn : ¬Off → ∃ canvas, p.draw s = ({ p with canvas }, .ok ()) ∧ AsDrawn canvas ∧
    Canvas.Drawn p.canvas canvas s.Covers

variable {p : Panel}

/-- A panel that is ready draws the strokes that lie on it. -/
theorem draws_of_ready (hready : p.ready = true) {s : Stroke Bitmap} {Off : Prop}
    {AsDrawn : Canvas → Prop} (hoff : s.fits = true ↔ ¬Off)
    (hdrawn : s.fits = true → AsDrawn (p.canvas.drawDots s.dots)) : p.Draws s Off AsDrawn := by
  by_cases hs : s.fits = true
  · have hnot := hoff.1 hs
    have hdraw := draw_of_fits hready hs
    refine ⟨⟨fun hrefused => ?_, fun h => absurd h hnot⟩, fun h => absurd h hnot, fun _ => ?_⟩
    · rw [hdraw] at hrefused
      cases hrefused
    · exact ⟨_, hdraw, hdrawn hs, Canvas.drawn_drawDots p.canvas s⟩
  · have hdraw := draw_of_not_fits hready hs
    have hyes : Off := Classical.byContradiction fun hnot => hs (hoff.2 hnot)
    rw [← Prod.eta (p.draw s), Prod.mk.injEq] at hdraw
    exact ⟨⟨fun _ => hyes, fun _ => hdraw.2⟩, fun _ => hdraw.1, fun hnot => absurd hyes hnot⟩

/-- **What a draw does.** A panel that was not configured refuses every call and changes nothing.
One that was refuses the strokes that leave the panel and changes nothing. It copies every other
picture pixel by pixel, and covers or outlines every other rectangle with pixels that are on exactly
if the colour is at least half bright; every other pixel is as before, and besides the pages that
were to be sent exactly those with a changed byte are. -/
theorem draw_exactly (p : Panel) :
    (p.ready = false →
      (∀ s, p.draw s = (p, .error .notInitialized)) ∧
      (∀ on, p.power on = (p, .error .notInitialized)) ∧
      p.flush = (p, .error .notInitialized)) ∧
    (p.ready = true →
      (∀ left top b, p.Draws (.image left top b)
        (128 < left.toNat + b.width.toNat ∨ 64 < top.toNat + b.height.toNat)
        fun canvas => ∀ i < b.width.toNat, ∀ j < b.height.toNat,
          canvas.pixel (left.toNat + i) (top.toNat + j) = b.pixel i j) ∧
      ∀ left top right bottom color filled, p.Draws (.rect left top right bottom color filled)
        (right < left ∨ bottom < top ∨ 128 ≤ right.toNat ∨ 64 ≤ bottom.toNat)
        fun canvas => ∀ x y, (Stroke.rect left top right bottom color filled).Covers x y →
          (canvas.pixel x y = true ↔ 128 ≤ color.luma)) := by
  refine ⟨fun hnot => ⟨draw_of_not_ready hnot, power_of_not_ready hnot, flush_of_not_ready hnot⟩,
    fun hready => ⟨fun left top b => ?_, fun left top right bottom color filled => ?_⟩⟩
  · refine draws_of_ready hready ?_ fun hs i hi j hj => ?_
    · rw [Stroke.fits_image_iff]
      omega
    · exact p.canvas.pixel_drawDots_of_mem hs (Raster.mem_image.2 ⟨i, j, hi, hj, rfl⟩)
  · refine draws_of_ready hready ?_ fun hs x y hcovers => ?_
    · rw [Stroke.fits_rect_iff, UInt16.le_iff_toNat_le, UInt16.le_iff_toNat_le,
        UInt16.lt_iff_toNat_lt, UInt16.lt_iff_toNat_lt]
      omega
    · rw [p.canvas.pixel_drawDots_of_mem hs (Stroke.mem_dots_rect.2 ⟨x, y, rfl, hcovers⟩),
        Color.isLit, decide_eq_true_eq]

/-- A panel that was configured and has nothing to be sent. -/
def settled : Panel :=
  { bus := {}, address := 0x3C, canvas := { Canvas.blank with dirty := 0 }, ready := true }

/-- A picture of ten by three pixels, the last one of the second row on. -/
def speck : Bitmap where
  width := 10
  height := 3
  data := #[0, 0, 0, 0x40, 0, 0]
  width_ne := by decide
  height_ne := by decide
  size_data := by decide

/-- The speck is drawn with its second row at the foot of the first page. The page below gets its
third row, which changes no byte, and is not to be sent. One pixel further to the right the speck is
refused, and a panel that was not configured refuses it anyway. -/
theorem draw_exactly_speck :
    (∃ canvas, settled.draw (.image 118 6 speck) = ({ settled with canvas }, .ok ()) ∧
      canvas.pixel 127 7 = true ∧ canvas.pixel 127 8 = false ∧ canvas.isDirty 0 = true ∧
      canvas.isDirty 1 = false ∧ canvas.page 1 = settled.canvas.page 1) ∧
    settled.draw (.image 119 6 speck) = (settled, .error .invalidCoordinates) ∧
    { settled with ready := false }.draw (.image 118 6 speck) =
      ({ settled with ready := false }, .error .notInitialized) := by
  obtain ⟨himage, -⟩ := (draw_exactly settled).2 rfl
  refine ⟨?_, Prod.ext ?_ ?_, ((draw_exactly { settled with ready := false }).1 rfl).1 _⟩
  · obtain ⟨canvas, hdraw, hpixel, hdrawn⟩ := (himage 118 6 speck).drawn (by decide)
    have hcanvas : canvas = (settled.draw (.image 118 6 speck)).1.canvas := by rw [hdraw]
    have hclean : canvas.isDirty 1 = false := by
      rw [hcanvas]
      decide +kernel
    refine ⟨canvas, hdraw, ?_, ?_, ?_, hclean, ?_⟩
    · exact (hpixel 9 (by decide) 1 (by decide)).trans (by decide +kernel)
    · exact (hpixel 9 (by decide) 2 (by decide)).trans (by decide +kernel)
    · rw [hcanvas]
      decide +kernel
    · exact Classical.byContradiction fun hne =>
        Bool.eq_false_iff.1 hclean ((hdrawn.isDirty_iff 1).2 (Or.inr hne))
  · exact (himage 119 6 speck).unchanged (by decide)
  · exact (himage 119 6 speck).refused_iff.2 (by decide)

end Panel

end StatusPanel
