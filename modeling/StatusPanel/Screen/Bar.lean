import StatusPanel.Screen.Area
import StatusPanel.Surface.Basic

/-!
# Value bars

A bar shows a value out of a scale by its length. It is erased over its whole area before it is
drawn, so no pixel of a longer bar stays behind.

## Main definitions

* `barLength`: the length of a value, rounded to the nearest pixel
* `Bar`: a bar that grows from the left or from the bottom
* `Bar.strokes`: the strokes that draw a value
* `Bar.draw`: draws a value on a surface

## Main results

* `barLength_le`: no bar is longer than its room
-/

namespace StatusPanel

/-- The length of `value` out of `scale` on a bar of `pixels`, to the nearest pixel with halves
rounded up. Values above the scale fill the bar, and a zero scale leaves it empty. -/
def barLength (value scale pixels : Nat) : Nat :=
  if scale = 0 then 0 else (min value scale * pixels + scale / 2) / scale

theorem barLength_le (value scale pixels : Nat) : barLength value scale pixels ≤ pixels := by
  unfold barLength
  split
  · exact Nat.zero_le _
  · have h : min value scale * pixels ≤ scale * pixels :=
      Nat.mul_le_mul_right _ (Nat.min_le_right _ _)
    have hs : (scale * pixels + scale / 2) / scale = pixels := by
      rw [Nat.mul_add_div (by omega), Nat.div_eq_of_lt (by omega), Nat.add_zero]
    calc _ ≤ (scale * pixels + scale / 2) / scale := Nat.div_le_div_right (by omega)
      _ = pixels := hs

/-- Where a bar grows from. -/
inductive Growth
  | fromLeft
  | fromBottom
  deriving DecidableEq, Repr

/-- A bar on the screen. -/
structure Bar where
  growth : Growth
  area : Area
  deriving DecidableEq, Repr

namespace Bar

/-- The greatest length of a bar. -/
def pixels (bar : Bar) : UInt16 :=
  match bar.growth with
  | .fromLeft => bar.area.width
  | .fromBottom => bar.area.height

/-- The length of a bar that shows a value. -/
def length (bar : Bar) (value scale : Nat) : UInt16 :=
  UInt16.ofNat (barLength value scale bar.pixels.toNat)

/-- The stroke that erases a bar. -/
def erase {ι : Type} (bar : Bar) : Stroke ι :=
  .rect bar.area.x bar.area.y bar.area.right bar.area.bottom .black true

/-- The stroke that draws a bar of a length other than zero. -/
def fill {ι : Type} (bar : Bar) (length : UInt16) : Stroke ι :=
  match bar.growth with
  | .fromLeft =>
    .rect bar.area.x bar.area.y (bar.area.x + length - 1) bar.area.bottom .white true
  | .fromBottom =>
    .rect bar.area.x (bar.area.bottom + 1 - length) bar.area.right bar.area.bottom .white true

/-- The strokes that show a value: the erasure, and the bar unless it is empty. -/
def strokes {ι : Type} (bar : Bar) (value scale : Nat) : List (Stroke ι) :=
  if bar.length value scale = 0 then [bar.erase]
  else [bar.erase, bar.fill (bar.length value scale)]

/-- Draws a bar that shows a value. The answer is the length of the bar, or the first refusal. -/
def draw {S ι : Type} [Surface S ι] (bar : Bar) (surface : S) (value scale : Nat) :
    S × Except Fault UInt16 :=
  let (surface, reply) := drawAll surface (bar.strokes value scale)
  (surface, reply.map fun _ => bar.length value scale)

end Bar

end StatusPanel
