import StatusPanel.Screen.Drawing

/-!
# The painter

The painter keeps the screen up to date part by part. Each part is closed with a single flush, and
a refused stroke ends its part only. The lighting bars are slow to draw, so the painter remembers
the lighting on the screen and leaves them alone while it stays.

## Main definitions

* `Painter`: the pictures, the scale of the typing speed, and the remembered lighting
* `Painter.showLayers`, `Painter.showDefaultLayer`, `Painter.showLocks`, `Painter.showLighting`:
  the answers to a change of state
* `Painter.tick`: the periodic redraw
* `Painter.redrawAll`: the redraw of the whole screen
* `Painter.redrawParts`: the redraw of some parts

## Main results

* `Painter.redraw_snd`: a part's redraw paints the part, whatever is remembered
* `Painter.fst_showBars`, `Painter.fst_showBackground`: what is remembered
* `Painter.redrawAll_eq`, `Painter.tick_eq`: the parts of each redraw
-/

namespace StatusPanel

/-- A painter with pictures of type `ι`. -/
structure Painter (ι : Type) where
  /-- The pictures. -/
  gallery : Gallery ι
  /-- The typing speed that fills its bar. -/
  scale : UInt16
  /-- The lighting whose bars are on the screen, if they were drawn in full. -/
  shown : Option Lighting := none

namespace Painter

variable {S ι : Type} [Surface S ι]

/-- Redraws the glyph of the default layer. -/
def showDefaultLayer (p : Painter ι) (surface : S) (mask : LayerMask) : S :=
  (paint surface (Drawing.defaultLayer p.gallery mask)).1

/-- Redraws the checkboxes. -/
def showLayers (p : Painter ι) (surface : S) (mask : LayerMask) : S :=
  (paint surface (Drawing.layers p.gallery mask)).1

/-- Redraws the lock icons. -/
def showLocks (p : Painter ι) (surface : S) (locks : Locks) : S :=
  (paint surface (Drawing.locks p.gallery locks)).1

/-- Redraws the bar of the typing speed. -/
def showSpeed (p : Painter ι) (surface : S) (wpm : UInt16) : S :=
  (paint surface (Drawing.speed p.scale wpm)).1

/-- Redraws the effect index. -/
def showEffect (surface : S) (lighting : Lighting) : S :=
  (paint surface (Drawing.effectIndex lighting)).1

/-- Redraws the lighting bars; the lighting is remembered if none of them was refused. -/
def showBars (p : Painter ι) (surface : S) (lighting : Lighting) : Painter ι × S :=
  match paint surface (Drawing.lightingBars lighting) with
  | (surface, .ok ()) => ({ p with shown := some lighting }, surface)
  | (surface, .error _) => (p, surface)

/-- Erases the screen and redraws the decoration. With the bars erased, no lighting is
remembered. -/
def showBackground (p : Painter ι) (surface : S) : Painter ι × S :=
  match Surface.draw surface Drawing.erase with
  | (surface, .ok ()) =>
    ({ p with shown := none }, (paint surface (Drawing.decoration p.gallery)).1)
  | (surface, .error _) => (p, (Surface.flush surface).1)

/-- Redraws the bars and the effect index of a lighting. -/
def showLighting (p : Painter ι) (surface : S) (lighting : Lighting) : Painter ι × S :=
  let (p, surface) := p.showBars surface lighting
  (p, showEffect surface lighting)

/-- The periodic redraw: always the typing speed, and the lighting if another one is remembered or
none. -/
def tick (p : Painter ι) (surface : S) (status : Status) : Painter ι × S :=
  let surface := p.showSpeed surface status.wpm
  if p.shown = some status.lighting then (p, surface) else p.showLighting surface status.lighting

/-- Redraws one part from a status. -/
def redraw (p : Painter ι) (surface : S) (status : Status) : Part → Painter ι × S
  | .background => p.showBackground surface
  | .defaultLayer => (p, p.showDefaultLayer surface status.defaultLayers)
  | .layers => (p, p.showLayers surface status.layers)
  | .locks => (p, p.showLocks surface status.locks)
  | .lightingBars => p.showBars surface status.lighting
  | .effectIndex => (p, showEffect surface status.lighting)
  | .speed => (p, p.showSpeed surface status.wpm)

/-- Redraws every part from a status, in drawing order. -/
def redrawAll (p : Painter ι) (surface : S) (status : Status) : Painter ι × S :=
  Part.all.foldl (fun (p, surface) part => p.redraw surface status part) (p, surface)

/-- Redrawing a part draws its strokes and closes them with one flush. -/
theorem redraw_snd (p : Painter ι) (surface : S) (status : Status) (part : Part) :
    (p.redraw surface status part).2 =
      (paint surface (Drawing.part p.gallery p.scale status part)).1 := by
  cases part with
  | background =>
    simp only [redraw, showBackground, Drawing.part, paint, drawAll_cons]
    split <;> simp_all
  | lightingBars =>
    simp only [redraw, showBars, Drawing.part]
    split <;> simp_all
  | _ => rfl

/-- The lighting is remembered if none of its bars was refused. -/
theorem fst_showBars (p : Painter ι) (surface : S) (lighting : Lighting) :
    (p.showBars surface lighting).1 =
      match (drawAll surface (Drawing.lightingBars lighting)).2 with
      | .ok () => { p with shown := some lighting }
      | .error _ => p := by
  unfold showBars paint
  cases (drawAll surface (Drawing.lightingBars lighting)).2 <;> rfl

/-- The lighting is forgotten if the screen was erased. -/
theorem fst_showBackground (p : Painter ι) (surface : S) :
    (p.showBackground surface).1 =
      match (Surface.draw surface Drawing.erase).2 with
      | .ok () => { p with shown := none }
      | .error _ => p := by
  unfold showBackground
  obtain ⟨erased, _ | _⟩ := Surface.draw surface (Drawing.erase : Stroke ι) <;> rfl

/-! ## Redraws of several parts -/

/-- Redraws parts from a status, one after another. -/
def redrawParts (p : Painter ι) (surface : S) (status : Status) : List Part → Painter ι × S
  | [] => (p, surface)
  | part :: rest =>
    redrawParts (p.redraw surface status part).1 (p.redraw surface status part).2 status rest

theorem redrawParts_eq_foldl (r : Painter ι × S) (status : Status) (parts : List Part) :
    redrawParts r.1 r.2 status parts =
      parts.foldl (fun (p, surface) part => p.redraw surface status part) r := by
  induction parts generalizing r with
  | nil => rfl
  | cons part rest ih => exact ih (r.1.redraw r.2 status part)

theorem redrawParts_append (p : Painter ι) (surface : S) (status : Status) (xs ys : List Part) :
    p.redrawParts surface status (xs ++ ys) =
      (p.redrawParts surface status xs).1.redrawParts (p.redrawParts surface status xs).2 status
        ys := by
  induction xs generalizing p surface with
  | nil => rfl
  | cons x xs ih => exact ih _ _

/-- The redraw of the whole screen redraws every part. -/
theorem redrawAll_eq (p : Painter ι) (surface : S) (status : Status) :
    p.redrawAll surface status = p.redrawParts surface status Part.all :=
  (redrawParts_eq_foldl (p, surface) status Part.all).symm

/-- The parts of the periodic redraw. -/
def tickParts (p : Painter ι) (status : Status) : List Part :=
  if p.shown = some status.lighting then [.speed] else [.speed, .lightingBars, .effectIndex]

theorem tick_eq (p : Painter ι) (surface : S) (status : Status) :
    p.tick surface status = p.redrawParts surface status (p.tickParts status) := by
  unfold tick tickParts
  dsimp only
  split <;> rfl

end Painter

end StatusPanel
