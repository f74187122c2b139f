import StatusPanel.Proofs.Panel.Calls

/-!
# Ink

What strokes set pixels to, apart from the surface that draws them. A stroke covers some pixels of
the panel and says for each whether it is on; of several strokes the last one that covers a pixel
counts. On every surface whose pixels can be seen, drawing changes exactly what is covered.

## Main definitions

* `OnPanel`: the pixels of the panel
* `Stroke.ink`, `Drawing.ink`: what a stroke, and a list of strokes, set a pixel to
* `PixelSurface`: a surface whose pixels can be seen

## Main results

* `Stroke.mem_dots_iff`: the dots of a stroke are its ink
* `pixel_drawAll_of_ok`: strokes that are all accepted set what they cover and nothing else
* `pixel_drawAll_of_ink_eq_none`: strokes leave alone what they do not cover, refused or not
-/

namespace StatusPanel

/-- Whether a pixel lies on the panel. -/
def OnPanel (x y : Nat) : Prop := x < panelWidth ∧ y < panelHeight

instance (x y : Nat) : Decidable (OnPanel x y) := inferInstanceAs (Decidable (_ ∧ _))

/-- The pixels of a page lie on the panel. -/
theorem onPanel_of_page (page : Fin 8) {x i : Nat} (hx : x < 128) (hi : i < 8) :
    OnPanel x (page.val * 8 + i) := by
  have hpage := page.isLt
  refine ⟨hx, ?_⟩
  simp only [panelHeight]
  omega

/-! ## Dots on a canvas -/

namespace Canvas

/-- A dot off the panel is dropped. -/
theorem drawDot_of_not {c : Canvas} {d : Dot}
    (h : ¬∃ x y : Nat, OnPanel x y ∧ d.x = x ∧ d.y = y) : c.drawDot d = c := by
  unfold drawDot
  split
  case isTrue hpos =>
    refine setPixel_of_not d.on fun hon => h ⟨d.x.toNat, d.y.toNat, hon, ?_, ?_⟩
    · exact (Int.toNat_of_nonneg hpos.1).symm
    · exact (Int.toNat_of_nonneg hpos.2).symm
  case isFalse => rfl

theorem drawDot_natCast (c : Canvas) (x y : Nat) (on : Bool) :
    c.drawDot ⟨x, y, on⟩ = c.setPixel x y on := by
  simp [drawDot]

theorem pixel_drawDot (c : Canvas) (d : Dot) {x y : Nat} (h : OnPanel x y) :
    (c.drawDot d).pixel x y = if d.x = x ∧ d.y = y then d.on else c.pixel x y := by
  by_cases hd : ∃ u v : Nat, OnPanel u v ∧ d.x = u ∧ d.y = v
  · obtain ⟨dx, dy, on⟩ := d
    obtain ⟨u, v, hon, rfl, rfl⟩ := hd
    rw [drawDot_natCast, pixel_setPixel hon]
    simp only [Int.natCast_inj, eq_comm]
  · have hne : ¬(d.x = x ∧ d.y = y) := fun hat => hd ⟨x, y, h, hat⟩
    rw [drawDot_of_not hd, if_neg hne]

/-- A dot makes its page one to be sent if it changes its pixel. -/
theorem isDirty_drawDot_iff {c : Canvas} {d : Dot} {page : Nat} (hpage : page < 8) :
    (c.drawDot d).isDirty page = true ↔ c.isDirty page = true ∨
      ∃ x y : Nat, OnPanel x y ∧ y / 8 = page ∧ (d.x = x ∧ d.y = y) ∧ c.pixel x y ≠ d.on := by
  by_cases hd : ∃ u v : Nat, OnPanel u v ∧ d.x = u ∧ d.y = v
  · obtain ⟨dx, dy, on⟩ := d
    obtain ⟨u, v, hon, rfl, rfl⟩ := hd
    rw [drawDot_natCast, isDirty_setPixel hon on hpage]
    simp only [Bool.or_eq_true, Bool.and_eq_true, decide_eq_true_eq, bne_iff_ne, Int.natCast_inj]
    refine or_congr_right ⟨?_, ?_⟩
    · rintro ⟨hrow, hne⟩
      exact ⟨u, v, hon, hrow.symm, ⟨rfl, rfl⟩, hne⟩
    · rintro ⟨x, y, -, hrow, ⟨rfl, rfl⟩, hne⟩
      exact ⟨hrow.symm, hne⟩
  · rw [drawDot_of_not hd]
    refine (or_iff_left ?_).symm
    rintro ⟨x, y, hon, -, hat, -⟩
    exact hd ⟨x, y, hon, hat⟩

/-- Dots that agree on a pixel set it to what they agree on, if one of them lies there. -/
theorem pixel_drawDots (c : Canvas) (ds : List Dot) {x y : Nat} (h : OnPanel x y) (on : Bool)
    (hds : ∀ d ∈ ds, d.x = x ∧ d.y = y → d.on = on) :
    (c.drawDots ds).pixel x y =
      if ∃ d ∈ ds, d.x = x ∧ d.y = y then on else c.pixel x y := by
  -- Induction on the dots: each is drawn over what the ones before it left.
  induction ds generalizing c with
  | nil => simp
  | cons d ds ih =>
    rw [drawDots_cons, ih _ fun e he => hds e (List.mem_cons_of_mem _ he), pixel_drawDot c d h]
    by_cases hd : d.x = x ∧ d.y = y
    · have hon : d.on = on := hds d List.mem_cons_self hd
      simp [hd, hon]
    · simp [hd]

end Canvas

/-! ## The ink of a stroke -/

namespace Raster

theorem mem_fill {left top right bottom : Nat} {on : Bool} {d : Dot} :
    d ∈ fill left top right bottom on ↔
      ∃ x y : Nat, d = ⟨x, y, on⟩ ∧ left ≤ x ∧ x ≤ right ∧ top ≤ y ∧ y ≤ bottom := by
  simp only [fill, List.mem_flatMap, List.mem_map, List.mem_range'_1]
  constructor
  · rintro ⟨y, hy, x, hx, rfl⟩
    exact ⟨x, y, rfl, by omega⟩
  · rintro ⟨x, y, rfl, h⟩
    exact ⟨y, by omega, x, by omega, rfl⟩

theorem mem_outline {left top right bottom : Nat} {on : Bool} {d : Dot} :
    d ∈ outline left top right bottom on ↔
      ∃ x y : Nat, d = ⟨x, y, on⟩ ∧ left ≤ x ∧ x ≤ right ∧ top ≤ y ∧ y ≤ bottom ∧
        (x = left ∨ x = right ∨ y = top ∨ y = bottom) := by
  simp only [outline, List.mem_filter, mem_fill, Bool.or_eq_true, decide_eq_true_eq]
  constructor
  · rintro ⟨⟨x, y, rfl, h₁, h₂, h₃, h₄⟩, hb⟩
    exact ⟨x, y, rfl, h₁, h₂, h₃, h₄, by simp only at hb; omega⟩
  · rintro ⟨x, y, rfl, h₁, h₂, h₃, h₄, hb⟩
    exact ⟨⟨x, y, rfl, h₁, h₂, h₃, h₄⟩, by simp only; omega⟩

theorem mem_image {left top : Nat} {b : Bitmap} {d : Dot} :
    d ∈ image left top b ↔ ∃ i j : Nat, i < b.width.toNat ∧ j < b.height.toNat ∧
      d = ⟨(left + i : Nat), (top + j : Nat), b.pixel i j⟩ := by
  simp only [image, List.mem_flatMap, List.mem_map, List.mem_range]
  constructor
  · rintro ⟨j, hj, i, hi, rfl⟩
    exact ⟨i, j, hi, hj, rfl⟩
  · rintro ⟨i, j, hi, hj, rfl⟩
    exact ⟨j, hj, i, hi, rfl⟩

end Raster

namespace Stroke

/-- What a stroke sets a pixel to, if it covers it. -/
def ink : Stroke Bitmap → Nat → Nat → Option Bool
  | .image left top b, x, y =>
    if left.toNat ≤ x ∧ x < left.toNat + b.width.toNat ∧
        top.toNat ≤ y ∧ y < top.toNat + b.height.toNat then
      some (b.pixel (x - left.toNat) (y - top.toNat))
    else none
  | .rect left top right bottom color filled, x, y =>
    if left.toNat ≤ x ∧ x ≤ right.toNat ∧ top.toNat ≤ y ∧ y ≤ bottom.toNat ∧
        (filled = true ∨
          x = left.toNat ∨ x = right.toNat ∨ y = top.toNat ∨ y = bottom.toNat) then
      some color.isLit
    else none

/-- An outline keeps the dots of the edges, which are all that it covers. -/
theorem mem_dots_rect {left top right bottom : UInt16} {color : Color} {filled : Bool} {d : Dot} :
    d ∈ (rect left top right bottom color filled : Stroke Bitmap).dots ↔
      ∃ x y : Nat, d = ⟨x, y, color.isLit⟩ ∧ left.toNat ≤ x ∧ x ≤ right.toNat ∧
        top.toNat ≤ y ∧ y ≤ bottom.toNat ∧
        (filled = true ∨
          x = left.toNat ∨ x = right.toNat ∨ y = top.toNat ∨ y = bottom.toNat) := by
  cases filled with
  | true => simp [dots, Raster.mem_fill]
  | false => simp [dots, Raster.mem_outline]

/-- The dots of a stroke are the pixels that it covers, each as it sets it. -/
theorem mem_dots_iff {s : Stroke Bitmap} {x y : Nat} {on : Bool} :
    (⟨x, y, on⟩ : Dot) ∈ s.dots ↔ s.ink x y = some on := by
  cases s with
  | image left top b =>
    rw [dots, Raster.mem_image, ink]
    constructor
    · rintro ⟨i, j, hi, hj, hdot⟩
      simp only [Dot.mk.injEq, Int.natCast_inj] at hdot
      obtain ⟨rfl, rfl, rfl⟩ := hdot
      rw [if_pos (by omega), Nat.add_sub_cancel_left, Nat.add_sub_cancel_left]
    · intro hink
      split at hink
      case isTrue hin =>
        obtain rfl := Option.some.inj hink
        -- the dot of the bitmap's pixel, counted from its corner
        refine ⟨x - left.toNat, y - top.toNat, by omega, by omega, ?_⟩
        rw [Nat.add_sub_cancel' hin.1, Nat.add_sub_cancel' hin.2.2.1]
      case isFalse => cases hink
  | rect left top right bottom color filled =>
    rw [mem_dots_rect, ink]
    constructor
    · rintro ⟨u, v, hdot, hin⟩
      simp only [Dot.mk.injEq, Int.natCast_inj] at hdot
      obtain ⟨rfl, rfl, rfl⟩ := hdot
      exact if_pos hin
    · intro hink
      split at hink
      case isTrue hin =>
        obtain rfl := Option.some.inj hink
        exact ⟨x, y, rfl, hin⟩
      case isFalse => cases hink

end Stroke

/-- The dots of a stroke set what it covers, and nothing else. -/
theorem Canvas.pixel_drawStroke (c : Canvas) (s : Stroke Bitmap) {x y : Nat} (h : OnPanel x y) :
    (c.drawDots s.dots).pixel x y = (s.ink x y).getD (c.pixel x y) := by
  cases hink : s.ink x y with
  | none =>
    have hnone : ¬∃ d ∈ s.dots, d.x = x ∧ d.y = y := by
      rintro ⟨⟨u, v, on⟩, hd, rfl, rfl⟩
      rw [Stroke.mem_dots_iff, hink] at hd
      cases hd
    rw [pixel_drawDots c _ h true fun d hd hat => absurd ⟨d, hd, hat⟩ hnone, if_neg hnone,
      Option.getD_none]
  | some on =>
    have hagree : ∀ d ∈ s.dots, d.x = x ∧ d.y = y → d.on = on := by
      rintro ⟨u, v, lit⟩ hd ⟨rfl, rfl⟩
      rw [Stroke.mem_dots_iff, hink] at hd
      exact (Option.some.inj hd).symm
    rw [pixel_drawDots c _ h on hagree, if_pos ⟨_, Stroke.mem_dots_iff.2 hink, rfl, rfl⟩,
      Option.getD_some]

/-! ## The ink of a list of strokes -/

namespace Drawing

/-- What strokes set a pixel to, if one of them covers it: the last one counts. -/
def ink : List (Stroke Bitmap) → Nat → Nat → Option Bool
  | [], _, _ => none
  | s :: rest, x, y => (ink rest x y).or (s.ink x y)

@[simp] theorem ink_nil (x y : Nat) : ink [] x y = none := rfl

@[simp] theorem ink_cons (s : Stroke Bitmap) (rest : List (Stroke Bitmap)) (x y : Nat) :
    ink (s :: rest) x y = (ink rest x y).or (s.ink x y) := rfl

theorem ink_append (xs ys : List (Stroke Bitmap)) (x y : Nat) :
    ink (xs ++ ys) x y = (ink ys x y).or (ink xs x y) := by
  induction xs with
  | nil => simp
  | cons s xs ih => simp [ih, Option.or_assoc]

end Drawing

/-! ## Surfaces with pixels -/

/-- A surface whose pixels can be seen. An accepted stroke sets what it covers; a refused stroke, a
power command and a flush change no pixel. -/
class PixelSurface (S : Type) extends Surface S Bitmap where
  pixel : S → Nat → Nat → Bool
  pixel_draw_of_ok {surface : S} {stroke : Stroke Bitmap} {x y : Nat} :
    (draw surface stroke).2 = .ok () → OnPanel x y →
      pixel (draw surface stroke).1 x y = (stroke.ink x y).getD (pixel surface x y)
  pixel_draw_of_error {surface : S} {stroke : Stroke Bitmap} {fault : Fault} :
    (draw surface stroke).2 = .error fault → pixel (draw surface stroke).1 = pixel surface
  pixel_power (surface : S) (on : Bool) : pixel (power surface on).1 = pixel surface
  pixel_flush (surface : S) : pixel (flush surface).1 = pixel surface

attribute [simp] PixelSurface.pixel_power PixelSurface.pixel_flush

section

open PixelSurface

variable {S : Type} [PixelSurface S]

theorem drawAll_cons_of_ok {surface : S} {s : Stroke Bitmap} (rest : List (Stroke Bitmap))
    (h : (Surface.draw surface s).2 = .ok ()) :
    drawAll surface (s :: rest) = drawAll (Surface.draw surface s).1 rest := by
  rw [drawAll_cons, ← Prod.eta (Surface.draw surface s), h, andThen_ok]

theorem drawAll_cons_of_error {surface : S} {s : Stroke Bitmap} (rest : List (Stroke Bitmap))
    {fault : Fault} (h : (Surface.draw surface s).2 = .error fault) :
    drawAll surface (s :: rest) = ((Surface.draw surface s).1, .error fault) := by
  rw [drawAll_cons, ← Prod.eta (Surface.draw surface s), h, andThen_error]

theorem pixel_drawAll_of_ok {surface : S} {strokes : List (Stroke Bitmap)}
    (hok : (drawAll surface strokes).2 = .ok ()) {x y : Nat} (h : OnPanel x y) :
    pixel (drawAll surface strokes).1 x y =
      (Drawing.ink strokes x y).getD (pixel surface x y) := by
  induction strokes generalizing surface with
  | nil => rfl
  | cons s rest ih =>
    cases hs : (Surface.draw surface s).2 with
    | ok =>
      rw [drawAll_cons_of_ok rest hs] at hok ⊢
      rw [ih hok, pixel_draw_of_ok hs h, Drawing.ink_cons]
      cases Drawing.ink rest x y <;> rfl
    | error fault =>
      -- a stroke that is refused ends the drawing with its error
      rw [drawAll_cons_of_error rest hs] at hok
      cases hok

theorem pixel_drawAll_of_ink_eq_none {surface : S} {strokes : List (Stroke Bitmap)} {x y : Nat}
    (h : OnPanel x y) (hn : Drawing.ink strokes x y = none) :
    pixel (drawAll surface strokes).1 x y = pixel surface x y := by
  induction strokes generalizing surface with
  | nil => rfl
  | cons s rest ih =>
    obtain ⟨hrest, hstroke⟩ := Option.or_eq_none_iff.1 hn
    cases hs : (Surface.draw surface s).2 with
    | ok =>
      rw [drawAll_cons_of_ok rest hs, ih hrest, pixel_draw_of_ok hs h, hstroke, Option.getD_none]
    | error fault => rw [drawAll_cons_of_error rest hs, pixel_draw_of_error hs]

theorem pixel_paint (surface : S) (strokes : List (Stroke Bitmap)) :
    pixel (paint surface strokes).1 = pixel (drawAll surface strokes).1 := by
  simp [paint]

end

/-! ## The panel as a surface with pixels -/

namespace Panel

instance : PixelSurface Panel where
  pixel p := p.canvas.pixel
  pixel_draw_of_ok {p s x y} hok h := by
    change (p.draw s).2 = .ok () at hok
    change (p.draw s).1.canvas.pixel x y = _
    rcases draw_cases p s with hd | ⟨fault, hd⟩
    · rw [hd, Canvas.pixel_drawStroke p.canvas s h]
    · rw [hd] at hok
      cases hok
  pixel_draw_of_error {p s fault} he := by
    change (p.draw s).2 = .error fault at he
    change (p.draw s).1.canvas.pixel = _
    rcases draw_cases p s with hd | ⟨fault, hd⟩
    · rw [hd] at he
      cases he
    · rw [hd]
  pixel_power p on := congrArg Canvas.pixel (canvas_power p on)
  pixel_flush p := funext fun x => funext fun y => pixel_canvas_flush p x y

@[simp] theorem pixel_eq (p : Panel) : PixelSurface.pixel p = p.canvas.pixel := rfl

end Panel

end StatusPanel
