import StatusPanel.Proofs.Screen.Slots

/-!
# Redraws of two parts

A part's strokes keep to the area of the part, and a panel that was configured accepts each of them.
Two parts apart from the background have areas without a common pixel, so a panel may draw them in
either order. That follows dot by dot: dots at different pixels may be drawn in either order, and
the pages that are to be sent afterwards are the same as well.

## Main definitions

* `Dot.Apart`: dots at different pixels
* `Trace.drawn`: the trace of a redraw in which every stroke is accepted

## Main results

* `Canvas.ext_pixel`: the pixels and the pages to be sent determine the canvas
* `Canvas.drawDots_comm`: dots at different pixels may be drawn in either order
* `Drawing.has_area_of_ink`: a stroke of a part keeps to the area of the part
* `Drawing.apart_dots`: the dots of two parts are at different pixels
* `Painter.pixel_redraw_comm`, `Painter.fst_redraw_comm`: the redraws of two parts may be made in
  either order
-/

namespace StatusPanel

/-! ## Canvases with the same pixels -/

namespace Canvas

variable {c d : Canvas}

/-- The pixels determine the bytes. -/
theorem bytes_eq_of_pixel (h : ∀ x y, OnPanel x y → c.pixel x y = d.pixel x y) :
    c.bytes = d.bytes := by
  apply Vector.ext
  intro i hi
  apply Byte.ext_bit
  intro bit hbit
  -- the pixel whose row is that bit of the byte
  have hon : i % 128 < panelWidth ∧ i / 128 * 8 + bit < panelHeight := by
    simp only [panelWidth, panelHeight]
    omega
  have hindex : index (i % 128) (i / 128 * 8 + bit) = i := by
    unfold index
    omega
  have hrow : (i / 128 * 8 + bit) % 8 = bit := by omega
  have hpixel := h _ _ hon
  rw [pixel, dif_pos hon, pixel, dif_pos hon] at hpixel
  simp only [hindex, hrow] at hpixel
  exact hpixel

/-- The pixels and the pages to be sent determine the canvas. -/
theorem ext_pixel (hpixel : ∀ x y, OnPanel x y → c.pixel x y = d.pixel x y)
    (hdirty : ∀ page < 8, c.isDirty page = d.isDirty page) : c = d := by
  have hbytes := bytes_eq_of_pixel hpixel
  have hpages : c.dirty = d.dirty := Byte.ext_bit hdirty
  obtain ⟨bytes, dirty⟩ := c
  obtain ⟨bytes', dirty'⟩ := d
  obtain rfl : bytes = bytes' := hbytes
  obtain rfl : dirty = dirty' := hpages
  rfl

/-! ## Dots at different pixels -/

/-- Two pixels may be set in either order. -/
theorem setPixel_comm (c : Canvas) {x y u v : Nat} (hne : ¬(x = u ∧ y = v)) (a b : Bool) :
    (c.setPixel x y a).setPixel u v b = (c.setPixel u v b).setPixel x y a := by
  by_cases hxy : OnPanel x y
  · by_cases huv : OnPanel u v
    · apply ext_pixel
      · intro i j hij
        rw [pixel_setPixel huv, pixel_setPixel hxy, pixel_setPixel hxy, pixel_setPixel huv]
        by_cases hi : i = u ∧ j = v
        · have hother : ¬(i = x ∧ j = y) := by
            rintro ⟨rfl, rfl⟩
            exact hne ⟨hi.1, hi.2⟩
          rw [if_pos hi, if_neg hother, if_pos hi]
        · rw [if_neg hi, if_neg hi]
      · intro page hpage
        have hfirst : (c.setPixel x y a).pixel u v = c.pixel u v := by
          rw [pixel_setPixel hxy, if_neg fun h => hne ⟨h.1.symm, h.2.symm⟩]
        have hsecond : (c.setPixel u v b).pixel x y = c.pixel x y := by
          rw [pixel_setPixel huv, if_neg hne]
        rw [isDirty_setPixel huv b hpage, isDirty_setPixel hxy a hpage,
          isDirty_setPixel hxy a hpage, isDirty_setPixel huv b hpage, hfirst, hsecond,
          Bool.or_right_comm]
    · rw [setPixel_of_not b huv, setPixel_of_not b huv]
  · rw [setPixel_of_not a hxy, setPixel_of_not a hxy]

end Canvas

/-- Dots at different pixels. -/
def Dot.Apart (d e : Dot) : Prop := ¬(d.x = e.x ∧ d.y = e.y)

namespace Canvas

/-- Two dots at different pixels may be drawn in either order. -/
theorem drawDot_comm (c : Canvas) {d e : Dot} (h : d.Apart e) :
    (c.drawDot d).drawDot e = (c.drawDot e).drawDot d := by
  unfold drawDot
  by_cases hd : 0 ≤ d.x ∧ 0 ≤ d.y
  · by_cases he : 0 ≤ e.x ∧ 0 ≤ e.y
    · have hne : ¬(d.x.toNat = e.x.toNat ∧ d.y.toNat = e.y.toNat) := by
        unfold Dot.Apart at h
        omega
      simp only [if_pos hd, if_pos he]
      exact c.setPixel_comm hne d.on e.on
    · simp only [if_neg he]
  · simp only [if_neg hd]

/-- A dot may be drawn before or after dots at other pixels. -/
theorem drawDots_drawDot (c : Canvas) {d : Dot} {es : List Dot} (h : ∀ e ∈ es, d.Apart e) :
    (c.drawDot d).drawDots es = (c.drawDots es).drawDot d := by
  -- Induction on the other dots: the dot moves behind the first of them, then behind the rest.
  induction es generalizing c with
  | nil => rfl
  | cons e es ih =>
    obtain ⟨he, hes⟩ := List.forall_mem_cons.1 h
    calc (c.drawDot d).drawDots (e :: es)
      _ = ((c.drawDot d).drawDot e).drawDots es := rfl
      _ = ((c.drawDot e).drawDot d).drawDots es := by rw [c.drawDot_comm he]
      _ = (c.drawDots (e :: es)).drawDot d := ih (c.drawDot e) hes

/-- Dots at different pixels may be drawn in either order. -/
theorem drawDots_comm (c : Canvas) {ds es : List Dot} (h : ∀ d ∈ ds, ∀ e ∈ es, d.Apart e) :
    (c.drawDots ds).drawDots es = (c.drawDots es).drawDots ds := by
  -- Induction on the dots drawn first: all but the first move behind the others, then it does.
  induction ds generalizing c with
  | nil => rfl
  | cons d ds ih =>
    obtain ⟨hd, hds⟩ := List.forall_mem_cons.1 h
    calc (c.drawDots (d :: ds)).drawDots es
      _ = ((c.drawDot d).drawDots es).drawDots ds := ih (c.drawDot d) hds
      _ = ((c.drawDots es).drawDot d).drawDots ds := by rw [c.drawDots_drawDot hd]

end Canvas

/-! ## Strokes of a part -/

namespace Stroke

/-- Every dot of a stroke is at a pixel that the stroke covers. -/
theorem exists_of_mem_dots {s : Stroke Bitmap} {d : Dot} (h : d ∈ s.dots) :
    ∃ x y : Nat, d.x = x ∧ d.y = y ∧ s.ink x y ≠ none := by
  have hcovers {x y : Nat} {on : Bool} (hd : d = ⟨x, y, on⟩) :
      ∃ x y : Nat, d.x = x ∧ d.y = y ∧ s.ink x y ≠ none := by
    subst hd
    refine ⟨x, y, rfl, rfl, ?_⟩
    rw [mem_dots_iff.1 h]
    exact Option.some_ne_none on
  cases s with
  | image left top b =>
    obtain ⟨i, j, -, -, hd⟩ := Raster.mem_image.1 h
    exact hcovers hd
  | rect left top right bottom color filled =>
    obtain ⟨x, y, hd, -⟩ := mem_dots_rect.1 h
    exact hcovers hd

end Stroke

namespace Drawing

theorem covers_of_mem {strokes : List (Stroke Bitmap)} {s : Stroke Bitmap} (hs : s ∈ strokes)
    {x y : Nat} (h : s.ink x y ≠ none) : Covers strokes x y := by
  induction strokes with
  | nil => cases hs
  | cons t rest ih =>
    rw [covers_cons]
    rcases List.mem_cons.1 hs with rfl | hs
    · exact Or.inl h
    · exact Or.inr (ih hs)

variable {g : Gallery Bitmap} {scale : UInt16} {status other : Status} {q r : Part}

/-- A stroke of a part covers a place of the part. -/
theorem has_of_ink (hg : g.Sized) {s : Stroke Bitmap} (hs : s ∈ part g scale status q) {x y : Nat}
    (h : s.ink x y ≠ none) : ∃ a ∈ q.places, a.Has x y :=
  has_of_covers_part hg (covers_of_mem hs h)

/-- **A stroke of a part** keeps to the area of the part. -/
theorem has_area_of_ink (hg : g.Sized) {s : Stroke Bitmap} (hs : s ∈ part g scale status q)
    {x y : Nat} (h : s.ink x y ≠ none) : q.area.Has x y := by
  obtain ⟨a, ha, hxy⟩ := has_of_ink hg hs h
  exact Part.has_area ha hxy

/-- The dots of strokes, in drawing order. -/
def dots (strokes : List (Stroke Bitmap)) : List Dot := strokes.flatMap Stroke.dots

/-- The dots of two parts are at different pixels, apart from the background. -/
theorem apart_dots (hg : g.Sized) (hq : q ≠ .background) (hr : r ≠ .background) (hne : q ≠ r) :
    ∀ d ∈ dots (part g scale status q), ∀ e ∈ dots (part g scale other r), d.Apart e := by
  rintro d hd e he ⟨hx, hy⟩
  obtain ⟨s, hs, hd⟩ := List.mem_flatMap.1 hd
  obtain ⟨t, ht, he⟩ := List.mem_flatMap.1 he
  obtain ⟨x, y, hdx, hdy, hink⟩ := Stroke.exists_of_mem_dots hd
  obtain ⟨u, v, hex, hey, hother⟩ := Stroke.exists_of_mem_dots he
  obtain rfl : x = u := Int.ofNat.inj (hdx.symm.trans (hx.trans hex))
  obtain rfl : y = v := Int.ofNat.inj (hdy.symm.trans (hy.trans hey))
  -- the pixel would be in a place of each part
  obtain ⟨a, ha, hxy⟩ := has_of_ink hg hs hink
  obtain ⟨b, hb, huv⟩ := has_of_ink hg ht hother
  exact hne (Part.eq_of_has hq hr ha hb hxy huv)

end Drawing

/-! ## Strokes on a panel -/

namespace Panel

/-- A panel with dots drawn on its canvas. -/
def inked (p : Panel) (dots : List Dot) : Panel := { p with canvas := p.canvas.drawDots dots }

theorem inked_inked (p : Panel) (ds es : List Dot) :
    (p.inked ds).inked es = p.inked (ds ++ es) := by
  simp only [inked, Canvas.drawDots_append]

theorem inked_comm (p : Panel) {ds es : List Dot} (h : ∀ d ∈ ds, ∀ e ∈ es, d.Apart e) :
    (p.inked ds).inked es = (p.inked es).inked ds := by
  simp only [inked, p.canvas.drawDots_comm h]

/-- A panel that is ready draws strokes that lie on it as their dots. -/
theorem drawAll_eq_of_fits {p : Panel} (hr : p.ready = true) {strokes : List (Stroke Bitmap)}
    (hf : ∀ s ∈ strokes, s.fits = true) :
    drawAll p strokes = (p.inked (Drawing.dots strokes), .ok ()) := by
  induction strokes generalizing p with
  | nil => rfl
  | cons s rest ih =>
    obtain ⟨hs, hrest⟩ := List.forall_mem_cons.1 hf
    have hdraw : Surface.draw p s = (p.inked s.dots, .ok ()) := draw_of_fits hr hs
    have hrest' : drawAll (p.inked s.dots) rest =
        ((p.inked s.dots).inked (Drawing.dots rest), .ok ()) := ih hr hrest
    rw [drawAll_cons, hdraw, andThen_ok, hrest', inked_inked]
    rfl

theorem drawAll_part {p : Panel} (hr : p.ready = true) {g : Gallery Bitmap} (hg : g.Sized)
    (scale : UInt16) (status : Status) (q : Part) :
    drawAll p (Drawing.part g scale status q) =
      (p.inked (Drawing.dots (Drawing.part g scale status q)), .ok ()) :=
  drawAll_eq_of_fits hr fun _ hs => Drawing.fits_part hg hs

/-- **Two parts may be drawn in either order**, apart from the background. -/
theorem drawAll_part_comm {p : Panel} (hr : p.ready = true) {g : Gallery Bitmap} (hg : g.Sized)
    (scale : UInt16) (status other : Status) {q r : Part} (hq : q ≠ .background)
    (hr' : r ≠ .background) (hne : q ≠ r) :
    (drawAll (drawAll p (Drawing.part g scale status q)).1 (Drawing.part g scale other r)).1 =
      (drawAll (drawAll p (Drawing.part g scale other r)).1 (Drawing.part g scale status q)).1 := by
  have hready (dots : List Dot) : (p.inked dots).ready = true := hr
  rw [drawAll_part hr hg, drawAll_part hr hg, drawAll_part (hready _) hg,
    drawAll_part (hready _) hg]
  exact p.inked_comm (Drawing.apart_dots hg hq hr' hne)

end Panel

/-! ## Redraws -/

/-- The trace of strokes that are all accepted. -/
def Trace.drawn {ι : Type} (strokes : List (Stroke ι)) : Trace ι :=
  strokes.map fun stroke => (.draw stroke, .ok ())

theorem Traced.trace_drawAll_of_ok {S ι : Type} [Surface S ι] {t : Traced S ι}
    {strokes : List (Stroke ι)} (hok : (drawAll t.surface strokes).2 = .ok ()) :
    (drawAll t strokes).1.trace = t.trace ++ Trace.drawn strokes := by
  induction strokes generalizing t with
  | nil => exact (List.append_nil _).symm
  | cons stroke rest ih =>
    rw [drawAll_cons] at hok ⊢
    rw [draw_eq]
    generalize Surface.draw t.surface stroke = drawn at hok ⊢
    obtain ⟨surface, _ | _⟩ := drawn
    · cases hok
    · have hrest := ih (t := ⟨surface, t.trace ++ [(.draw stroke, .ok ())]⟩) hok
      rw [andThen_ok, hrest, List.append_assoc]
      rfl

namespace Painter

open PixelSurface

variable {p : Painter Bitmap} {panel : Panel}

/-- On a steady bus a redraw leaves no page to be sent. -/
theorem clean_redraw (hr : panel.ready = true) (hsteady : panel.bus.Steady) (status : Status)
    (q : Part) :
    (p.redraw panel status q).2.bus.Steady ∧
      ∀ page < 8, (p.redraw panel status q).2.canvas.isDirty page = false := by
  have hdrawn := Panel.steady_drawAll hsteady (Drawing.part p.gallery p.scale status q)
  have hready := Panel.ready_drawAll panel (Drawing.part p.gallery p.scale status q)
  have hflush := Panel.flush_of_steady hdrawn (hready.trans hr)
  rw [redraw_snd]
  exact ⟨hflush.2, fun page hpage => Panel.isDirty_flush_of_ok hflush.1 hpage⟩

section

variable (hg : p.gallery.Sized) (hr : panel.ready = true)

include hg hr

theorem drawAll_part_of_sized (status : Status) (q : Part) :
    (drawAll panel (Drawing.part p.gallery p.scale status q)).2 = .ok () := by
  rw [Panel.drawAll_part hr hg]

/-- A redraw makes the strokes of its part, each of them accepted, and one flush. -/
theorem trace_redraw (status : Status) (q : Part) :
    ∃ reply, (p.redraw (Traced.fresh panel) status q).2.trace =
      Trace.drawn (Drawing.part p.gallery p.scale status q) ++ [(.flush, reply)] := by
  have hok := drawAll_part_of_sized hg hr status q
  rw [redraw_snd, paint, Traced.flush_eq]
  dsimp only
  rw [Traced.trace_drawAll_of_ok (t := Traced.fresh panel) hok]
  exact ⟨_, rfl⟩

/-- A redraw sets what the strokes of its part cover. -/
theorem pixel_redraw (status : Status) (q : Part) {x y : Nat} (hxy : OnPanel x y) :
    pixel (p.redraw panel status q).2 x y =
      (Drawing.ink (Drawing.part p.gallery p.scale status q) x y).getD (pixel panel x y) := by
  rw [redraw_snd, pixel_paint,
    pixel_drawAll_of_ok (drawAll_part_of_sized hg hr status q) hxy]

/-- The lighting is remembered if its bars are redrawn. -/
theorem fst_redraw (status : Status) {q : Part} (hq : q ≠ .background) :
    (p.redraw panel status q).1 =
      if q = .lightingBars then { p with shown := some status.lighting } else p := by
  have hok := drawAll_part_of_sized hg hr status .lightingBars
  rw [Drawing.part] at hok
  cases q with
  | background => exact absurd rfl hq
  | lightingBars => rw [redraw, fst_showBars, hok, if_pos rfl]
  | _ => rfl

variable (status other : Status) {q r : Part} (hq : q ≠ .background) (hr' : r ≠ .background)
  (hne : q ≠ r)

include hq hr' hne

/-- After the redraws of two parts each pixel is as the redraws in the other order leave it. -/
theorem pixel_redraw_comm {x y : Nat} (hxy : OnPanel x y) :
    pixel ((p.redraw panel status q).1.redraw (p.redraw panel status q).2 other r).2 x y =
      pixel ((p.redraw panel other r).1.redraw (p.redraw panel other r).2 status q).2 x y := by
  have hsecond (s t : Status) (a b : Part) :
      pixel ((p.redraw panel s a).1.redraw (p.redraw panel s a).2 t b).2 x y =
        (Drawing.ink (Drawing.part p.gallery p.scale t b) x y).getD
          ((Drawing.ink (Drawing.part p.gallery p.scale s a) x y).getD (pixel panel x y)) := by
    have hsized : (p.redraw panel s a).1.gallery.Sized := by rwa [gallery_redraw]
    have hready : (p.redraw panel s a).2.ready = true := by rwa [ready_redraw]
    rw [pixel_redraw hsized hready t b hxy, gallery_redraw, scale_redraw,
      pixel_redraw hg hr s a hxy]
  rw [hsecond, hsecond]
  -- at most one of the two parts covers the pixel
  cases hfirst : Drawing.ink (Drawing.part p.gallery p.scale status q) x y with
  | none => rfl
  | some on =>
    have hcovers : Drawing.Covers (Drawing.part p.gallery p.scale status q) x y := by
      rw [Drawing.Covers, hfirst]
      exact Option.some_ne_none on
    obtain ⟨a, ha, hin⟩ := Drawing.has_of_covers_part hg hcovers
    have hother : Drawing.ink (Drawing.part p.gallery p.scale other r) x y = none := by
      by_contra hcovers'
      obtain ⟨b, hb, hin'⟩ := Drawing.has_of_covers_part hg hcovers'
      exact hne (Part.eq_of_has hq hr' ha hb hin hin')
    rw [hother]
    rfl

theorem fst_redraw_comm :
    ((p.redraw panel status q).1.redraw (p.redraw panel status q).2 other r).1 =
      ((p.redraw panel other r).1.redraw (p.redraw panel other r).2 status q).1 := by
  have hsized (s : Status) (a : Part) : (p.redraw panel s a).1.gallery.Sized := by
    rwa [gallery_redraw]
  have hready (s : Status) (a : Part) : (p.redraw panel s a).2.ready = true := by
    rwa [ready_redraw]
  rw [fst_redraw (hsized _ _) (hready _ _) other hr',
    fst_redraw (hsized _ _) (hready _ _) status hq,
    fst_redraw hg hr status hq, fst_redraw hg hr other hr']
  by_cases hbars : q = .lightingBars
  · have hnot : r ≠ .lightingBars := fun h => hne (hbars.trans h.symm)
    simp [hbars, hnot]
  · simp [hbars]

end

/-- **Redraws stay inside their parts and commute.** With any of the pictures loaded, on every panel
that was configured, whatever it showed and whatever its bus does:

* the redraw of a part makes the strokes of the part, each of which is accepted, and one flush; and
  whatever the canvas holds when one of these strokes is drawn, it is accepted and changes no pixel
  outside of the area of the part;
* the redraws of two parts apart from the background leave, in either order and with any values, the
  same picture, and the painter remembers the same. The strokes alone leave the same panel, with the
  same pages to be sent; and if the bus is steady, the canvas after the redraws is the same. -/
theorem redraws_commute {p : Painter Bitmap} (hg : p.gallery.Sized) {panel : Panel}
    (hr : panel.ready = true) :
    (∀ status q,
      let strokes := Drawing.part p.gallery p.scale status q
      (∃ reply, (p.redraw (Traced.fresh panel) status q).2.trace =
        Trace.drawn strokes ++ [(.flush, reply)]) ∧
      ∀ stroke ∈ strokes, ∀ canvas,
        let drawn := { panel with canvas }.draw stroke
        drawn.2 = .ok () ∧
          ∀ x y, ¬q.area.Has x y → drawn.1.canvas.pixel x y = canvas.pixel x y) ∧
    ∀ status other q r, q ≠ .background → r ≠ .background → q ≠ r →
      let both := (p.redraw panel status q).1.redraw (p.redraw panel status q).2 other r
      let swapped := (p.redraw panel other r).1.redraw (p.redraw panel other r).2 status q
      let strokes := Drawing.part p.gallery p.scale status q
      let others := Drawing.part p.gallery p.scale other r
      both.2.canvas.bytes = swapped.2.canvas.bytes ∧ both.1 = swapped.1 ∧
        (drawAll (drawAll panel strokes).1 others).1 =
          (drawAll (drawAll panel others).1 strokes).1 ∧
        (panel.bus.Steady → both.2.canvas = swapped.2.canvas) := by
  constructor
  · intro status q strokes
    refine ⟨trace_redraw hg hr status q, ?_⟩
    intro stroke hstroke canvas drawn
    have hdraw : drawn = ({ panel with canvas := canvas.drawDots stroke.dots }, .ok ()) :=
      Panel.draw_of_fits (p := { panel with canvas }) hr (Drawing.fits_part hg hstroke)
    rw [hdraw]
    refine ⟨rfl, fun x y hout => ?_⟩
    -- on the panel the stroke does not cover the pixel; off the panel there is none to change
    by_cases hxy : OnPanel x y
    · have hnone : stroke.ink x y = none := by
        by_contra hink
        exact hout (Drawing.has_area_of_ink hg hstroke hink)
      show (canvas.drawDots stroke.dots).pixel x y = _
      rw [canvas.pixel_drawStroke stroke hxy, hnone, Option.getD_none]
    · rw [Canvas.pixel_of_not hxy, Canvas.pixel_of_not hxy]
  · intro status other q r hq hr' hne both swapped strokes others
    have hpixel : ∀ x y, OnPanel x y → both.2.canvas.pixel x y = swapped.2.canvas.pixel x y :=
      fun x y hxy => pixel_redraw_comm hg hr status other hq hr' hne hxy
    refine ⟨Canvas.bytes_eq_of_pixel hpixel, fst_redraw_comm hg hr status other hq hr' hne,
      Panel.drawAll_part_comm hr hg p.scale status other hq hr' hne, ?_⟩
    -- on a steady bus both orders end with every page sent
    intro hsteady
    have hclean (s t : Status) (a b : Part) : ∀ page < 8,
        ((p.redraw panel s a).1.redraw (p.redraw panel s a).2 t b).2.canvas.isDirty page =
          false := by
      have hready : (p.redraw panel s a).2.ready = true := by rwa [ready_redraw]
      exact (clean_redraw hready (clean_redraw hr hsteady s a).1 t b).2
    refine Canvas.ext_pixel hpixel fun page hpage => ?_
    rw [hclean status other q r page hpage, hclean other status r q page hpage]

/-- With a glyph missing, the lock icons and the bar of the typing speed may be redrawn in either
order. -/
theorem redraws_commute_without :
    let p : Painter Bitmap := ⟨.without [.capsOn, .modeDvorak], 150, none⟩
    let status : Status := { Status.boot .initial with locks := ⟨false, true, true⟩, wpm := 70 }
    p.gallery.Sized ∧ Panel.slate.ready = true ∧
      ((p.redraw Panel.slate status .locks).1.redraw (p.redraw Panel.slate status .locks).2
          (.boot .initial) .speed).2.canvas =
        ((p.redraw Panel.slate (.boot .initial) .speed).1.redraw
          (p.redraw Panel.slate (.boot .initial) .speed).2 status .locks).2.canvas := by
  intro p status
  have hg : p.gallery.Sized := Gallery.sized_without _
  have hready : Panel.slate.ready = true := rfl
  obtain ⟨-, hcommute⟩ := redraws_commute hg hready
  obtain ⟨-, -, -, hcanvas⟩ :=
    hcommute status (.boot .initial) .locks .speed (by decide) (by decide) (by decide)
  exact ⟨hg, hready, hcanvas Bus.steady_default⟩

end Painter

end StatusPanel
