import StatusPanel.Screen.Painter

/-!
# Driving a surface

What a surface becomes when it is painted and switched, however its calls are answered. A painter
only paints, so what draws and flushes leave alone is left alone by every redraw. Surfaces that
answer alike are driven alike.

## Main definitions

* `Painted`, `Driven`: a surface after paints, and after paints and power commands
* `Surface.Alike`: a view of a surface that answers every call as the surface does

## Main results

* `Painted.view_eq`, `Driven.holds`: what the calls leave alone is left alone
* `Painter.painted_redrawParts`: a painter paints
* `Surface.Alike.redrawParts`: a painter acts alike on surfaces that answer alike
-/

namespace StatusPanel

section

variable {S ι : Type} [Surface S ι]

theorem view_drawAll {α : Type} (view : S → α)
    (hdraw : ∀ (surface : S) (stroke : Stroke ι),
      view (Surface.draw surface stroke).1 = view surface)
    (surface : S) (strokes : List (Stroke ι)) :
    view (drawAll surface strokes).1 = view surface := by
  induction strokes generalizing surface with
  | nil => rfl
  | cons stroke rest ih => rw [drawAll_cons, view_andThen view _ ih, hdraw]

theorem view_paint {α : Type} (view : S → α)
    (hdraw : ∀ (surface : S) (stroke : Stroke ι),
      view (Surface.draw surface stroke).1 = view surface)
    (hflush : ∀ surface : S, view (Surface.flush surface).1 = view surface)
    (surface : S) (strokes : List (Stroke ι)) :
    view (paint surface strokes).1 = view surface :=
  (hflush _).trans (view_drawAll view hdraw surface strokes)

/-- A surface after paints. -/
inductive Painted (before : S) : S → Prop
  | refl : Painted before before
  | paint {surface : S} (h : Painted before surface) (strokes : List (Stroke ι)) :
      Painted before (paint surface strokes).1

/-- A surface after paints and power commands. -/
inductive Driven (before : S) : S → Prop
  | refl : Driven before before
  | paint {surface : S} (h : Driven before surface) (strokes : List (Stroke ι)) :
      Driven before (paint surface strokes).1
  | power {surface : S} (h : Driven before surface) (on : Bool) :
      Driven before (Surface.power surface on).1

namespace Painted

variable {before between after : S}

theorem trans (h : Painted before between) (k : Painted between after) : Painted before after := by
  induction k with
  | refl => exact h
  | paint _ strokes ih => exact ih.paint strokes

theorem driven (h : Painted before after) : Driven before after := by
  induction h with
  | refl => exact .refl
  | paint _ strokes ih => exact ih.paint strokes

/-- What no draw and no flush changes is as before. -/
theorem view_eq (h : Painted before after) {α : Type} (view : S → α)
    (hdraw : ∀ (surface : S) (stroke : Stroke ι),
      view (Surface.draw surface stroke).1 = view surface)
    (hflush : ∀ surface : S, view (Surface.flush surface).1 = view surface) :
    view after = view before := by
  induction h with
  | refl => rfl
  | paint _ strokes ih => rw [view_paint view hdraw hflush, ih]

end Painted

namespace Driven

variable {before between after : S}

theorem trans (h : Driven before between) (k : Driven between after) : Driven before after := by
  induction k with
  | refl => exact h
  | paint _ strokes ih => exact ih.paint strokes
  | power _ on ih => exact ih.power on

/-- What paints and power commands keep holds after them if it did before. -/
theorem holds (h : Driven before after) {P : S → Prop}
    (hpaint : ∀ (surface : S) (strokes : List (Stroke ι)),
      P surface → P (StatusPanel.paint surface strokes).1)
    (hpower : ∀ (surface : S) (on : Bool), P surface → P (Surface.power surface on).1)
    (hbefore : P before) : P after := by
  induction h with
  | refl => exact hbefore
  | paint _ strokes ih => exact hpaint _ strokes ih
  | power _ on ih => exact hpower _ on ih

end Driven

/-! ## Painters -/

namespace Painter

variable (p : Painter ι) (surface : S)

theorem painted_redraw (status : Status) (q : Part) :
    Painted surface (p.redraw surface status q).2 := by
  rw [redraw_snd]
  exact Painted.refl.paint _

theorem painted_redrawParts (status : Status) (parts : List Part) :
    Painted surface (p.redrawParts surface status parts).2 := by
  induction parts generalizing p surface with
  | nil => exact .refl
  | cons q parts ih => exact (p.painted_redraw surface status q).trans (ih _ _)

end Painter

end

/-! ## Surfaces that answer alike -/

variable {S T ι : Type} [Surface S ι] [Surface T ι]

/-- A view of a surface that answers every call as the surface does. -/
structure Surface.Alike (view : S → T) : Prop where
  draw (surface : S) (stroke : Stroke ι) :
    Surface.draw (view surface) stroke = (Surface.draw surface stroke).map view id
  flush (surface : S) : Surface.flush (view surface) = (Surface.flush surface).map view id
  power (surface : S) (on : Bool) :
    Surface.power (view surface) on = (Surface.power surface on).map view id

namespace Surface.Alike

variable {view : S → T} (h : Alike view)

include h

theorem drawAll (surface : S) (strokes : List (Stroke ι)) :
    drawAll (view surface) strokes = (drawAll surface strokes).map view id := by
  induction strokes generalizing surface with
  | nil => rfl
  | cons stroke rest ih =>
    rw [drawAll_cons, drawAll_cons, h.draw]
    obtain ⟨next, _ | _⟩ := Surface.draw surface stroke
    · rfl
    · exact ih next

theorem paint (surface : S) (strokes : List (Stroke ι)) :
    paint (view surface) strokes = (paint surface strokes).map view id := by
  simp [StatusPanel.paint, h.drawAll, h.flush]

theorem driven {before after : S} (hd : Driven before after) :
    Driven (view before) (view after) := by
  induction hd with
  | refl => exact .refl
  | @paint surface _ strokes ih =>
    have hpaint : (StatusPanel.paint (view surface) strokes).1 =
        view (StatusPanel.paint surface strokes).1 := congrArg Prod.fst (h.paint surface strokes)
    exact hpaint ▸ ih.paint strokes
  | @power surface _ on ih =>
    have hpower : (Surface.power (view surface) on).1 = view (Surface.power surface on).1 :=
      congrArg Prod.fst (h.power surface on)
    exact hpower ▸ ih.power on

theorem redraw (p : Painter ι) (surface : S) (status : Status) (q : Part) :
    p.redraw (view surface) status q = (p.redraw surface status q).map id view := by
  apply Prod.ext
  case fst =>
    -- what is remembered depends on the answers, and these are alike
    cases q with
    | background =>
      rw [Prod.map_fst, Painter.redraw, Painter.redraw, Painter.fst_showBackground,
        Painter.fst_showBackground, h.draw]
      rfl
    | lightingBars =>
      rw [Prod.map_fst, Painter.redraw, Painter.redraw, Painter.fst_showBars,
        Painter.fst_showBars, h.drawAll]
      rfl
    | _ => rfl
  case snd =>
    rw [Prod.map_snd, Painter.redraw_snd, Painter.redraw_snd, h.paint]
    rfl

theorem redrawParts (p : Painter ι) (surface : S) (status : Status) (parts : List Part) :
    p.redrawParts (view surface) status parts =
      (p.redrawParts surface status parts).map id view := by
  induction parts generalizing p surface with
  | nil => rfl
  | cons q parts ih =>
    rw [Painter.redrawParts, Painter.redrawParts, h.redraw]
    exact ih _ _

end Surface.Alike

end StatusPanel
