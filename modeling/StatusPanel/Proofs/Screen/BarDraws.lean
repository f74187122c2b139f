import StatusPanel.Proofs.Panel.Drawing
import StatusPanel.Proofs.Screen.BarInk
import StatusPanel.Proofs.Screen.Commute
import StatusPanel.Proofs.Word

/-!
# Draws of a bar

A bar is erased over its whole area before it is filled, so a draw hides all that was there: on
every panel that was configured, the area of a bar that lies on the panel shows exactly the bar
after a draw, and everything else is as before. So of many draws only the last one is to be seen.
Drawing a bar again does not even make another page one to be sent: what the erasure changes back
was changed by the first draw already.

The coordinates of the strokes are 16-bit words. With sums and differences that fail rather than
wrap they are the same, and none of them fails.

## Main definitions

* `Area.Inside`: an area with pixels, all of them on the panel
* `Bar.strokes?`: the strokes of a bar, if no coordinate wraps
* `Bar.Shows`: a canvas that shows a bar of a length, and is as another one besides
* `Bar.drawEach`: one draw after another

## Main results

* `Bar.strokes?_eq_strokes`: no coordinate of a bar on the panel wraps
* `Canvas.drawDots_twice`, `Canvas.drawDots_over_twice`: a stroke, and two of which the first covers
  all of the second, may be drawn again
* `Bar.shows_scaled_value`: what draws of a bar show
-/

namespace StatusPanel

/-- An area with pixels, all of them on the panel. -/
structure Area.Inside (a : Area) : Prop where
  width_pos : 0 < a.width.toNat
  height_pos : 0 < a.height.toNat
  x_add_width : a.x.toNat + a.width.toNat ≤ panelWidth
  y_add_height : a.y.toNat + a.height.toNat ≤ panelHeight

namespace Area

variable {a : Area} (h : a.Inside)

include h

theorem Inside.proper : a.Proper where
  width_pos := h.width_pos
  height_pos := h.height_pos
  x_add_width := Nat.lt_of_le_of_lt h.x_add_width (by decide)
  y_add_height := Nat.lt_of_le_of_lt h.y_add_height (by decide)

theorem Inside.onPanel {x y : Nat} (hxy : a.Has x y) : OnPanel x y :=
  ⟨Nat.lt_of_lt_of_le hxy.2.1 h.x_add_width, Nat.lt_of_lt_of_le hxy.2.2.2 h.y_add_height⟩

end Area

/-! ## Coordinates that do not wrap -/

namespace Area

/-- The last column, unless it wraps. -/
def right? (a : Area) : Option UInt16 := sum? a.x (reach a.width)

/-- The last row, unless it wraps. -/
def bottom? (a : Area) : Option UInt16 := sum? a.y (reach a.height)

variable {a : Area} (h : a.Proper)

include h

theorem Proper.right?_eq : a.right? = some a.right := by
  have hx := h.x_add_width
  refine sum?_of_lt ?_
  rw [toNat_reach h.width_pos, UInt16.size]
  omega

theorem Proper.bottom?_eq : a.bottom? = some a.bottom := by
  have hy := h.y_add_height
  refine sum?_of_lt ?_
  rw [toNat_reach h.height_pos, UInt16.size]
  omega

end Area

namespace Bar

/-- The stroke that erases a bar, unless a coordinate wraps. -/
def erase? {ι : Type} (bar : Bar) : Option (Stroke ι) := do
  let right ← bar.area.right?
  let bottom ← bar.area.bottom?
  return .rect bar.area.x bar.area.y right bottom .black true

/-- The stroke that draws a bar of a length other than zero, unless a coordinate wraps. -/
def fill? {ι : Type} (bar : Bar) (length : UInt16) : Option (Stroke ι) := do
  match bar.growth with
  | .fromLeft =>
    let stop ← sum? bar.area.x length
    let right ← difference? stop 1
    let bottom ← bar.area.bottom?
    return .rect bar.area.x bar.area.y right bottom .white true
  | .fromBottom =>
    let bottom ← bar.area.bottom?
    let stop ← sum? bottom 1
    let top ← difference? stop length
    let right ← bar.area.right?
    return .rect bar.area.x top right bottom .white true

/-- The strokes that show a value, unless a coordinate wraps. -/
def strokes? {ι : Type} (bar : Bar) (value scale : Nat) : Option (List (Stroke ι)) := do
  let erase ← bar.erase?
  if bar.length value scale = 0 then
    return [erase]
  else
    let fill ← bar.fill? (bar.length value scale)
    return [erase, fill]

section

variable {ι : Type} {bar : Bar} (h : bar.area.Proper)

include h

theorem erase?_eq : bar.erase? = some (bar.erase : Stroke ι) := by
  rw [erase?, h.right?_eq, h.bottom?_eq]
  rfl

theorem fill?_eq {length : UInt16} (hpos : 0 < length.toNat)
    (hle : length.toNat ≤ bar.pixels.toNat) :
    bar.fill? length = some (bar.fill length : Stroke ι) := by
  obtain ⟨growth, area⟩ := bar
  have hone : (1 : UInt16).toNat = 1 := rfl
  dsimp only at h
  cases growth with
  | fromLeft =>
    have hx := h.x_add_width
    replace hle : length.toNat ≤ area.width.toNat := hle
    have hstop : sum? area.x length = some (area.x + length) :=
      sum?_of_lt (by rw [UInt16.size]; omega)
    have hright : difference? (area.x + length) 1 = some (area.x + length - 1) := by
      refine difference?_of_le ?_
      rw [UInt16.toNat_add, hone]
      omega
    simp only [fill?, hstop, hright, h.bottom?_eq, Option.bind_eq_bind, Option.bind_some]
    rfl
  | fromBottom =>
    have hy := h.y_add_height
    have hheight := h.height_pos
    replace hle : length.toNat ≤ area.height.toNat := hle
    have hstop : sum? area.bottom 1 = some (area.bottom + 1) := by
      refine sum?_of_lt ?_
      rw [h.toNat_bottom, hone, UInt16.size]
      omega
    have htop : difference? (area.bottom + 1) length = some (area.bottom + 1 - length) := by
      refine difference?_of_le ?_
      rw [UInt16.toNat_add, h.toNat_bottom, hone]
      omega
    simp only [fill?, hstop, htop, h.right?_eq, h.bottom?_eq, Option.bind_eq_bind, Option.bind_some]
    rfl

/-- No coordinate of a bar wraps. -/
theorem strokes?_eq_strokes (value scale : Nat) :
    bar.strokes? value scale = some (bar.strokes value scale : List (Stroke ι)) := by
  rw [strokes?, strokes, erase?_eq h, Option.bind_eq_bind, Option.bind_some]
  by_cases hz : bar.length value scale = 0
  · rw [if_pos hz, if_pos hz]
    rfl
  · have hpos := toNat_length_pos hz
    rw [if_neg hz, if_neg hz, fill?_eq h hpos (bar.toNat_length_le value scale)]
    rfl

end

end Bar

/-! ## Strokes that are drawn again -/

namespace Canvas

/-- A stroke hides the strokes before it that covered no more. -/
theorem pixel_drawDots_over (c : Canvas) {s t : Stroke Bitmap}
    (hcovers : ∀ x y, t.Covers x y → s.Covers x y) {x y : Nat} (hxy : OnPanel x y) :
    ((c.drawDots t.dots).drawDots s.dots).pixel x y = (c.drawDots s.dots).pixel x y := by
  rw [pixel_drawStroke _ s hxy, pixel_drawStroke _ t hxy, pixel_drawStroke _ s hxy]
  cases hs : s.ink x y with
  | some on => rfl
  | none =>
    have ht : t.ink x y = none :=
      Stroke.ink_eq_none_iff.2 fun h => Stroke.ink_eq_none_iff.1 hs (hcovers x y h)
    rw [ht, Option.getD_none]

/-- A page that was to be sent wherever it was changed is one to be sent as before. -/
theorem Drawn.isDirty_eq {c d : Canvas} {Covers : Nat → Nat → Prop} (h : Drawn c d Covers)
    {page : Fin 8} (hknown : d.page page ≠ c.page page → c.isDirty page = true) :
    d.isDirty page = c.isDirty page := by
  rw [Bool.eq_iff_iff, h.isDirty_iff]
  exact or_iff_left_of_imp hknown

/-- A stroke that is drawn again changes nothing. -/
theorem drawDots_twice (c : Canvas) (s : Stroke Bitmap) :
    (c.drawDots s.dots).drawDots s.dots = c.drawDots s.dots := by
  have hpixel {x y : Nat} (hxy : OnPanel x y) :=
    c.pixel_drawDots_over (s := s) (t := s) (fun _ _ h => h) hxy
  refine ext_pixel (fun x y hxy => hpixel hxy) fun page hpage => ?_
  have hsame : ((c.drawDots s.dots).drawDots s.dots).page ⟨page, hpage⟩ =
      (c.drawDots s.dots).page ⟨page, hpage⟩ := page_eq_iff.2 fun x y hxy _ => hpixel hxy
  exact (drawn_drawDots (c.drawDots s.dots) s).isDirty_eq fun hne => absurd hsame hne

/-- A stroke and one over it that covers no more change nothing when they are drawn again. -/
theorem drawDots_over_twice (c : Canvas) {s t : Stroke Bitmap}
    (hcovers : ∀ x y, t.Covers x y → s.Covers x y) :
    let both := (c.drawDots s.dots).drawDots t.dots
    (both.drawDots s.dots).drawDots t.dots = both := by
  intro both
  -- the first stroke leaves the picture it left before, and so does the second one
  have hfirst {x y : Nat} (hxy : OnPanel x y) :
      (both.drawDots s.dots).pixel x y = (c.drawDots s.dots).pixel x y := by
    rw [(c.drawDots s.dots).pixel_drawDots_over hcovers hxy, c.drawDots_twice s]
  have hsecond {x y : Nat} (hxy : OnPanel x y) :
      ((both.drawDots s.dots).drawDots t.dots).pixel x y = both.pixel x y := by
    rw [pixel_drawStroke _ t hxy, pixel_drawStroke _ t hxy, hfirst hxy]
  refine ext_pixel (fun x y hxy => hsecond hxy) fun n hn => ?_
  let page : Fin 8 := ⟨n, hn⟩
  have hpage : (both.drawDots s.dots).page page = (c.drawDots s.dots).page page :=
    page_eq_iff.2 fun x y hxy _ => hfirst hxy
  have hpage' : ((both.drawDots s.dots).drawDots t.dots).page page = both.page page :=
    page_eq_iff.2 fun x y hxy _ => hsecond hxy
  -- a page that is changed now was changed by the second stroke the first time
  have hknown : both.page page ≠ (c.drawDots s.dots).page page → both.isDirty page = true :=
    fun hne => ((drawn_drawDots (c.drawDots s.dots) t).isDirty_iff page).2 (Or.inr hne)
  have hthen : (both.drawDots s.dots).isDirty page = both.isDirty page := by
    refine (drawn_drawDots both s).isDirty_eq fun hne => hknown ?_
    rw [hpage] at hne
    exact hne.symm
  have hafter : ((both.drawDots s.dots).drawDots t.dots).isDirty page =
      (both.drawDots s.dots).isDirty page := by
    refine (drawn_drawDots (both.drawDots s.dots) t).isDirty_eq fun hne => hthen.trans (hknown ?_)
    rwa [hpage, hpage'] at hne
  exact hafter.trans hthen

/-- The dots of strokes set what the strokes cover. -/
theorem pixel_drawDots_strokes (c : Canvas) (strokes : List (Stroke Bitmap)) {x y : Nat}
    (hxy : OnPanel x y) :
    (c.drawDots (Drawing.dots strokes)).pixel x y =
      (Drawing.ink strokes x y).getD (c.pixel x y) := by
  induction strokes generalizing c with
  | nil => rfl
  | cons s rest ih =>
    rw [Drawing.dots, List.flatMap_cons, drawDots_append, ← Drawing.dots, ih, Drawing.ink_cons,
      pixel_drawStroke c s hxy]
    cases Drawing.ink rest x y <;> rfl

end Canvas

/-! ## Draws of a bar -/

namespace Bar

/-- A canvas that shows a bar of a length: the pixels of its area are on that the bar lights, and
the others off, and outside of the area all is as on another canvas. -/
structure Shows (bar : Bar) (length : Nat) (before after : Canvas) : Prop where
  inside {x y : Nat} : bar.area.Has x y → (after.pixel x y = true ↔ bar.Lit length x y)
  outside {x y : Nat} : ¬bar.area.Has x y → after.pixel x y = before.pixel x y

/-- The panel after draws of a bar, one after another, of values and their scales. -/
def drawEach (bar : Bar) (p : Panel) (draws : List (Nat × Nat)) : Panel :=
  draws.foldl (fun p draw => (bar.draw p draw.1 draw.2).1) p

variable {bar : Bar} {p : Panel}

/-- The canvas that shows a bar is determined by what is outside of the area. -/
theorem Shows.bytes_eq {length : Nat} {c c' d d' : Canvas} (h : bar.Shows length c c')
    (h' : bar.Shows length d d')
    (houtside : ∀ x y, ¬bar.area.Has x y → c.pixel x y = d.pixel x y) : c'.bytes = d'.bytes := by
  refine Canvas.bytes_eq_of_pixel fun x y _ => ?_
  by_cases hxy : bar.area.Has x y
  · rw [Bool.eq_iff_iff, h.inside hxy, h'.inside hxy]
  · rw [h.outside hxy, h'.outside hxy, houtside x y hxy]

section

variable (h : bar.area.Inside) (hready : p.ready = true) (value scale : Nat)

include h

/-- The fill of a bar covers no more than its erasure. -/
theorem covers_erase_of_fill {length : UInt16} (hpos : 0 < length.toNat)
    (hle : length.toNat ≤ bar.pixels.toNat) {x y : Nat}
    (hcovers : (bar.fill length : Stroke Bitmap).Covers x y) :
    (bar.erase : Stroke Bitmap).Covers x y := by
  by_contra hnot
  rw [← Stroke.ink_eq_none_iff, ink_erase h.proper, ite_eq_right_iff] at hnot
  refine Stroke.ink_eq_none_iff.1 ?_ hcovers
  rw [ink_fill h.proper hpos hle]
  exact if_neg fun hlit => Option.some_ne_none _ (hnot hlit.1)

/-- The strokes of a bar change nothing when they are drawn again. -/
theorem drawDots_strokes_twice (c : Canvas) :
    (c.drawDots (Drawing.dots (bar.strokes value scale))).drawDots
        (Drawing.dots (bar.strokes value scale)) =
      c.drawDots (Drawing.dots (bar.strokes value scale)) := by
  unfold strokes
  by_cases hz : bar.length value scale = 0
  · rw [if_pos hz, Drawing.dots, List.flatMap_singleton]
    exact c.drawDots_twice bar.erase
  · have hpos := toNat_length_pos hz
    rw [if_neg hz, Drawing.dots, List.flatMap_cons, List.flatMap_singleton, Canvas.drawDots_append,
      Canvas.drawDots_append]
    exact c.drawDots_over_twice fun x y =>
      covers_erase_of_fill h hpos (bar.toNat_length_le value scale)

/-- The strokes of a bar show it. -/
theorem shows_drawDots (c : Canvas) :
    bar.Shows (barLength value scale bar.pixels.toNat) c
      (c.drawDots (Drawing.dots (bar.strokes value scale))) where
  inside {x y} hxy := by
    rw [c.pixel_drawDots_strokes _ (h.onPanel hxy), ink_strokes h.proper, if_pos hxy,
      Option.getD_some, decide_eq_true_iff]
  outside {x y} hxy := by
    by_cases hon : OnPanel x y
    · rw [c.pixel_drawDots_strokes _ hon, ink_strokes h.proper, if_neg hxy, Option.getD_none]
    · rw [Canvas.pixel_of_not hon, Canvas.pixel_of_not hon]

include hready

/-- A panel that was configured draws the strokes of a bar that lies on it. -/
theorem draw_eq : bar.draw p value scale =
    (p.inked (Drawing.dots (bar.strokes value scale)), .ok (bar.length value scale)) := by
  have hfits : ∀ s ∈ bar.strokes value scale, s.fits = true := fun s hs =>
    fits_of_mem_strokes h.proper h.x_add_width h.y_add_height hs
  rw [draw, Panel.drawAll_eq_of_fits hready hfits]
  rfl

/-- After draws of a bar a panel is still configured, and outside of the area as before. -/
theorem drawEach_outside (draws : List (Nat × Nat)) :
    (bar.drawEach p draws).ready = true ∧
      ∀ x y, ¬bar.area.Has x y → (bar.drawEach p draws).canvas.pixel x y = p.canvas.pixel x y := by
  -- Induction on the draws: the first one leaves a panel of the same kind to the others.
  induction draws generalizing p with
  | nil => exact ⟨hready, fun _ _ _ => rfl⟩
  | cons draw draws ih =>
    have hdraw := draw_eq h hready draw.1 draw.2
    have hfirst : (bar.draw p draw.1 draw.2).1.ready = true := by
      rw [hdraw]
      exact hready
    obtain ⟨hrest, houtside⟩ := ih hfirst
    refine ⟨hrest, fun x y hxy => (houtside x y hxy).trans ?_⟩
    rw [hdraw]
    exact (shows_drawDots h draw.1 draw.2 p.canvas).outside hxy

end

/-- **A bar shows exactly the scaled value, whatever was there.** On every panel that was
configured, for every bar that lies on the panel, and for every value and scale:

* no coordinate of its strokes wraps; the draw is accepted and answers the length of the value;
  afterwards the pixels of the area that are on are the first columns or the last rows of that
  length, and outside of the area no pixel is changed;
* after any draws of the bar a last draw leaves the picture that it leaves alone;
* a draw made twice leaves the panel, with the pages to be sent, that it leaves once. -/
theorem shows_scaled_value {bar : Bar} (h : bar.area.Inside) {p : Panel} (hready : p.ready = true)
    (value scale : Nat) :
    bar.strokes? value scale = some (bar.strokes value scale : List (Stroke Bitmap)) ∧
    (∃ canvas, bar.draw p value scale = ({ p with canvas }, .ok (bar.length value scale)) ∧
      (bar.length value scale).toNat = barLength value scale bar.pixels.toNat ∧
      bar.Shows (barLength value scale bar.pixels.toNat) p.canvas canvas) ∧
    (∀ earlier, (bar.draw (bar.drawEach p earlier) value scale).1.canvas.bytes =
      (bar.draw p value scale).1.canvas.bytes) ∧
    bar.draw (bar.draw p value scale).1 value scale = bar.draw p value scale := by
  have hdraw := draw_eq h hready value scale
  refine ⟨strokes?_eq_strokes h.proper value scale,
    ⟨_, hdraw, bar.toNat_length value scale, shows_drawDots h value scale p.canvas⟩, ?_, ?_⟩
  · intro earlier
    obtain ⟨hready', houtside⟩ := drawEach_outside h hready earlier
    rw [draw_eq h hready' value scale, hdraw]
    exact (shows_drawDots h value scale _).bytes_eq (shows_drawDots h value scale _) houtside
  · have hready' : (p.inked (Drawing.dots (bar.strokes value scale))).ready = true := hready
    rw [hdraw, draw_eq h hready' value scale]
    simp only [Panel.inked, drawDots_strokes_twice h value scale]

/-- A full bar is drawn over by one of a single row. -/
theorem shows_scaled_value_single :
    Layout.effectSpeedBar.area.Inside ∧ Panel.settled.ready = true ∧
      ∃ canvas, Layout.effectSpeedBar.draw
          (Layout.effectSpeedBar.drawEach Panel.settled [(255, 255)]) 10 255 =
            ({ Layout.effectSpeedBar.drawEach Panel.settled [(255, 255)] with canvas }, .ok 1) ∧
        canvas.pixel 52 23 = true ∧ canvas.pixel 52 22 = false := by
  have hinside : Layout.effectSpeedBar.area.Inside := by
    constructor <;> decide
  refine ⟨hinside, rfl, ?_⟩
  obtain ⟨-, ⟨canvas, hdraw, -, hshows⟩, -⟩ := shows_scaled_value hinside
    (drawEach_outside hinside (p := Panel.settled) rfl [(255, 255)]).1 10 255
  refine ⟨canvas, hdraw, (hshows.inside (by decide)).2 (by decide), ?_⟩
  rw [← Bool.not_eq_true, hshows.inside (by decide)]
  decide

end Bar

end StatusPanel
