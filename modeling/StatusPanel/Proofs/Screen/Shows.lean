import Mathlib.Tactic.ByContra
import Mathlib.Logic.Basic
import StatusPanel.Proofs.Screen.Places

/-!
# What the screen shows

A surface shows a screen: in each part the strokes that were drawn there last, and the background
where no part covers it. The parts keep to their places, so redrawing one changes what is shown
there and nothing else, and the order in which parts are drawn does not matter. Two surfaces that
show the same screen have the same pixels, whatever was drawn on them before.

## Main definitions

* `Screen`: the strokes drawn last in each part
* `Shows`: a surface shows a screen

## Main results

* `Shows.pixel_eq`: the screen determines the pixels
* `shows_background`, `Shows.paint`: drawing the background, and another part
-/

namespace StatusPanel

open PixelSurface

/-- The strokes that were drawn last in each part. -/
abbrev Screen := Part → List (Stroke Bitmap)

namespace Screen

/-- A screen with only the background drawn. -/
def only (strokes : List (Stroke Bitmap)) : Screen := fun q =>
  if q = .background then strokes else []

/-- A screen after a part was drawn again. -/
def set (screen : Screen) (p : Part) (strokes : List (Stroke Bitmap)) : Screen := fun q =>
  if q = p then strokes else screen q

@[simp] theorem set_self (screen : Screen) (p : Part) (strokes : List (Stroke Bitmap)) :
    screen.set p strokes p = strokes := if_pos rfl

theorem set_of_ne (screen : Screen) {p q : Part} (h : q ≠ p) (strokes : List (Stroke Bitmap)) :
    screen.set p strokes q = screen q := if_neg h

end Screen

section

variable {S : Type} [PixelSurface S] {surface : S} {screen : Screen}

/-- A surface shows a screen whose parts keep to their places. -/
structure Shows (surface : S) (screen : Screen) : Prop where
  /-- No part covers anything outside of its places. -/
  within {q : Part} (hq : q ≠ .background) {x y : Nat} (h : Drawing.Covers (screen q) x y) :
    ∃ a ∈ q.places, a.Has x y
  /-- What a part covers is as the part says. -/
  part {q : Part} (hq : q ≠ .background) {x y : Nat} {on : Bool} (h : OnPanel x y)
    (hon : Drawing.ink (screen q) x y = some on) : pixel surface x y = on
  /-- What no part covers is background. -/
  rest {x y : Nat} (h : OnPanel x y)
    (hn : ∀ q, q ≠ .background → Drawing.ink (screen q) x y = none) :
    Drawing.ink (screen .background) x y = some (pixel surface x y)

namespace Shows

theorem congr {other : Screen} (hs : Shows surface screen) (h : ∀ q, other q = screen q) :
    Shows surface other :=
  (funext h : other = screen) ▸ hs

theorem pixel_eq {T : Type} [PixelSurface T] {other : T} (hs : Shows surface screen)
    (ht : Shows other screen) {x y : Nat} (h : OnPanel x y) :
    pixel surface x y = pixel other x y := by
  by_cases hn : ∀ q, q ≠ .background → Drawing.ink (screen q) x y = none
  · exact Option.some.inj ((hs.rest h hn).symm.trans (ht.rest h hn))
  · -- some part covers the pixel, and both show what the part says
    simp only [not_forall] at hn
    obtain ⟨q, hq, hink⟩ := hn
    obtain ⟨on, hon⟩ := Option.ne_none_iff_exists'.1 hink
    exact (hs.part hq h hon).trans (ht.part hq h hon).symm

/-- Only the part itself covers its places. -/
theorem ink_eq_none (hs : Shows surface screen) {p q : Part} (hp : p ≠ .background)
    (hq : q ≠ .background) (hne : q ≠ p) {x y : Nat} {a : Area} (ha : a ∈ p.places)
    (hxy : a.Has x y) : Drawing.ink (screen q) x y = none := by
  by_contra hc
  obtain ⟨b, hb, hby⟩ := hs.within hq hc
  exact hne (Part.eq_of_has hq hp hb ha hby hxy)

/-- Strokes in the places of one part cover nothing that another part covers. -/
theorem ink_eq_none_of_within (hs : Shows surface screen) {p q : Part} (hp : p ≠ .background)
    (hq : q ≠ .background) (hne : q ≠ p) {strokes : List (Stroke Bitmap)}
    (hwithin : ∀ x y, Drawing.Covers strokes x y → ∃ a ∈ p.places, a.Has x y) {x y : Nat}
    (hcovers : Drawing.Covers (screen q) x y) : Drawing.ink strokes x y = none := by
  by_contra hc
  obtain ⟨a, ha, hxy⟩ := hwithin x y hc
  exact hcovers (hs.ink_eq_none hp hq hne ha hxy)

/-- Drawing a part again, over all that it covered before, changes what is shown there. -/
theorem paint (hs : Shows surface screen) {p : Part} (hp : p ≠ .background)
    {strokes : List (Stroke Bitmap)} (hok : (drawAll surface strokes).2 = .ok ())
    (hwithin : ∀ x y, Drawing.Covers strokes x y → ∃ a ∈ p.places, a.Has x y)
    (hover : ∀ x y, Drawing.Covers (screen p) x y → Drawing.Covers strokes x y) :
    Shows (StatusPanel.paint surface strokes).1 (screen.set p strokes) := by
  constructor
  case within =>
    intro q hq x y hc
    by_cases hqp : q = p
    · subst hqp
      rw [Screen.set_self] at hc
      exact hwithin x y hc
    · rw [screen.set_of_ne hqp] at hc
      exact hs.within hq hc
  case part =>
    intro q hq x y on h hon
    rw [pixel_paint, pixel_drawAll_of_ok hok h]
    by_cases hqp : q = p
    · -- in the part the new strokes count
      subst hqp
      rw [Screen.set_self] at hon
      rw [hon, Option.getD_some]
    · -- another part keeps its pixels: the new strokes do not reach its places
      rw [screen.set_of_ne hqp] at hon
      have hcovers : Drawing.Covers (screen q) x y := Option.ne_none_iff_exists'.2 ⟨on, hon⟩
      rw [hs.ink_eq_none_of_within hp hq hqp hwithin hcovers, Option.getD_none]
      exact hs.part hq h hon
  case rest =>
    -- a pixel that no part covers now was covered by none before
    intro x y h hn
    have hstrokes : Drawing.ink strokes x y = none := by
      have := hn p hp
      rwa [Screen.set_self] at this
    rw [pixel_paint, pixel_drawAll_of_ok hok h, hstrokes, Option.getD_none,
      screen.set_of_ne (Ne.symm hp)]
    refine hs.rest h fun q hq => ?_
    by_cases hqp : q = p
    · subst hqp
      by_contra hc
      exact hover x y hc hstrokes
    · have := hn q hq
      rwa [screen.set_of_ne hqp] at this

end Shows

/-- Strokes that cover the panel make a background, whatever was drawn before. -/
theorem shows_background {strokes : List (Stroke Bitmap)}
    (hok : (drawAll surface strokes).2 = .ok ())
    (hall : ∀ x y, OnPanel x y → Drawing.Covers strokes x y) :
    Shows (paint surface strokes).1 (Screen.only strokes) := by
  constructor
  case within =>
    intro q hq x y hc
    rw [Screen.only, if_neg hq] at hc
    exact absurd rfl hc
  case part =>
    intro q hq x y on h hon
    rw [Screen.only, if_neg hq] at hon
    cases hon
  case rest =>
    intro x y h hn
    obtain ⟨on, hon⟩ := Option.ne_none_iff_exists'.1 (hall x y h)
    rw [Screen.only, if_pos rfl, pixel_paint, pixel_drawAll_of_ok hok h, hon, Option.getD_some]

end

end StatusPanel
