import StatusPanel.Proofs.Surface.Trace
import StatusPanel.Proofs.Screen.Ink

/-!
# Faulty surfaces

A surface that refuses some of its calls, given in advance by their number. A refused call does not
reach the surface behind it, so it changes nothing there. A trace changes no pixel either.

## Main definitions

* `Faulty`: a surface with the calls to refuse
-/

namespace StatusPanel

/-- A surface that refuses calls by their number. -/
structure Faulty (S : Type) where
  surface : S
  /-- The number of calls so far. -/
  calls : Nat := 0
  /-- Whether the call is refused that so many came before. -/
  refuses : Nat → Bool

namespace Faulty

section

variable {S ι : Type} [Surface S ι]

/-- One call, refused or made to the surface behind. -/
def call (f : Faulty S) (make : S → S × Reply) : Faulty S × Reply :=
  if f.refuses f.calls then ({ f with calls := f.calls + 1 }, .error .communication)
  else
    ({ f with surface := (make f.surface).1, calls := f.calls + 1 }, (make f.surface).2)

instance : Surface (Faulty S) ι where
  draw f stroke := f.call (Surface.draw · stroke)
  flush f := f.call Surface.flush
  power f on := f.call (Surface.power · on)

end

open PixelSurface

variable {S : Type} [PixelSurface S]

/-- A call that leaves the pixels of the surface behind alone leaves the pixels alone. -/
theorem pixel_call (f : Faulty S) {make : S → S × Reply}
    (h : pixel (make f.surface).1 = pixel f.surface) :
    pixel (f.call make).1.surface = pixel f.surface := by
  unfold call
  split
  · rfl
  · exact h

instance : PixelSurface (Faulty S) where
  pixel f := pixel f.surface
  pixel_draw_of_ok {f stroke x y} hok h := by
    change (f.call (Surface.draw · stroke)).2 = .ok () at hok
    change pixel (f.call (Surface.draw · stroke)).1.surface x y = _
    unfold call at hok ⊢
    split at hok
    · cases hok
    · rename_i hr
      rw [if_neg hr]
      exact pixel_draw_of_ok hok h
  pixel_draw_of_error {f stroke fault} he := by
    change (f.call (Surface.draw · stroke)).2 = .error fault at he
    change pixel (f.call (Surface.draw · stroke)).1.surface = _
    unfold call at he ⊢
    split at he
    · rename_i hr
      rw [if_pos hr]
    · rename_i hr
      rw [if_neg hr]
      exact pixel_draw_of_error he
  pixel_power f on := f.pixel_call (pixel_power f.surface on)
  pixel_flush f := f.pixel_call (pixel_flush f.surface)

end Faulty

namespace Traced

open PixelSurface

variable {S : Type} [PixelSurface S]

instance : PixelSurface (Traced S Bitmap) where
  pixel t := pixel t.surface
  pixel_draw_of_ok hok h := pixel_draw_of_ok hok h
  pixel_draw_of_error he := pixel_draw_of_error he
  pixel_power t on := pixel_power t.surface on
  pixel_flush t := pixel_flush t.surface

end Traced

end StatusPanel
