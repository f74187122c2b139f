import StatusPanel.Proofs.Screen.Redraw
import StatusPanel.Proofs.Surface.Faulty

/-!
# The remembered lighting

A painter remembers the lighting whose bars it drew in full, and the periodic redraw leaves a
lighting alone that is remembered. A surface may refuse any stroke, which ends its part; the painter
then remembers as before. So what is remembered is on the screen as long as the last redraw of the
lighting was accepted, and need not be after one that was not: the effect index is not remembered,
and neither is that bars of another lighting were begun.

## Main definitions

* `ShowsPart`, `ShowsLighting`: a surface shows a part, and a lighting, as if freshly drawn
* `Painter.Coherent`: the lighting that is remembered is on the surface
* `Painter.Act`, `Session`: a painter at work on a surface

## Main results

* `Painter.coherent_of_accepted`: an accepted redraw of the lighting makes them agree
* `Session.showsLighting_of_accepts`: when the right lighting is on the screen
-/

namespace StatusPanel

open PixelSurface

variable {S : Type} [PixelSurface S]

/-- A surface shows strokes in all places of a part. -/
def ShowsPart (surface : S) (q : Part) (strokes : List (Stroke Bitmap)) : Prop :=
  ∀ a ∈ q.places, ∀ x y, a.Has x y → Drawing.ink strokes x y = some (pixel surface x y)

/-- A surface shows the bars and the effect index of a lighting. -/
def ShowsLighting (surface : S) (lighting : Lighting) : Prop :=
  ShowsPart surface .lightingBars (Drawing.lightingBars lighting) ∧
    ShowsPart surface .effectIndex (Drawing.effectIndex lighting)

/-- Whether the redraw of a part leaves the lighting alone. -/
def Part.SparesLighting (q : Part) : Prop :=
  q ≠ .background ∧ q ≠ .lightingBars ∧ q ≠ .effectIndex

instance (q : Part) : Decidable q.SparesLighting := inferInstanceAs (Decidable (_ ∧ _))

/-! ## What a redraw leaves alone -/

theorem ShowsPart.congr {surface other : S} {q : Part} {strokes : List (Stroke Bitmap)}
    (h : ∀ a ∈ q.places, ∀ x y, a.Has x y → pixel other x y = pixel surface x y) :
    ShowsPart other q strokes ↔ ShowsPart surface q strokes := by
  refine forall₂_congr fun a ha => forall₃_congr fun x y hxy => ?_
  rw [h a ha x y hxy]

namespace Painter

variable {p : Painter Bitmap} {surface : S} {status : Status}

theorem pixel_redraw_of_ne (hg : p.gallery.Sized) {q r : Part} (hq : q ≠ .background)
    (hr : r ≠ .background) (hne : r ≠ q) {a : Area} (ha : a ∈ q.places) {x y : Nat}
    (hxy : a.Has x y) :
    pixel (p.redraw surface status r).2 x y = pixel surface x y := by
  have hnone : Drawing.ink (Drawing.part p.gallery p.scale status r) x y = none := by
    by_contra hc
    obtain ⟨b, hb, hby⟩ := Drawing.has_of_covers_part hg hc
    exact hne (Part.eq_of_has hr hq hb ha hby hxy)
  rw [redraw_snd, pixel_paint, pixel_drawAll_of_ink_eq_none (Part.onPanel_of_has ha hxy) hnone]

/-- A redraw of a lighting that is accepted shows it in the part's places. -/
theorem showsPart_redraw {q : Part} (hq : q = .lightingBars ∨ q = .effectIndex)
    (hok : (drawAll surface (Drawing.part p.gallery p.scale status q)).2 = .ok ()) :
    ShowsPart (p.redraw surface status q).2 q (Drawing.part p.gallery p.scale status q) := by
  intro a ha x y hxy
  -- the strokes of a lighting do not depend on the pictures
  have hcovers : Drawing.Covers (Drawing.part p.gallery p.scale status q) x y := by
    have hbuiltin : Drawing.part p.gallery p.scale status q =
        Drawing.part Gallery.builtin p.scale status q := by
      rcases hq with rfl | rfl <;> rfl
    rw [hbuiltin]
    exact (Drawing.covers_part_iff Gallery.complete_builtin).2 ⟨a, ha, hxy⟩
  obtain ⟨on, hon⟩ := Option.ne_none_iff_exists'.1 hcovers
  rw [redraw_snd, pixel_paint, pixel_drawAll_of_ok hok (Part.onPanel_of_has ha hxy), hon,
    Option.getD_some]

theorem showsLighting_redraw_iff (hg : p.gallery.Sized) {r : Part} (hr : r.SparesLighting)
    (lighting : Lighting) :
    ShowsLighting (p.redraw surface status r).2 lighting ↔ ShowsLighting surface lighting :=
  and_congr
    (ShowsPart.congr fun _ ha _ _ hxy => pixel_redraw_of_ne hg (by decide) hr.1 hr.2.1 ha hxy)
    (ShowsPart.congr fun _ ha _ _ hxy => pixel_redraw_of_ne hg (by decide) hr.1 hr.2.2 ha hxy)

theorem showsLighting_redrawParts_iff (hg : p.gallery.Sized) {parts : List Part}
    (hparts : ∀ r ∈ parts, r.SparesLighting) (lighting : Lighting) :
    ShowsLighting (p.redrawParts surface status parts).2 lighting ↔
      ShowsLighting surface lighting := by
  induction parts generalizing p surface with
  | nil => exact Iff.rfl
  | cons r rest ih =>
    have hg' : (p.redraw surface status r).1.gallery.Sized := by rwa [gallery_redraw]
    rw [redrawParts, ih hg' fun q hq => hparts q (List.mem_cons_of_mem _ hq),
      showsLighting_redraw_iff hg (hparts r List.mem_cons_self)]

theorem shown_redrawParts_of_spares {parts : List Part}
    (hparts : ∀ r ∈ parts, r.SparesLighting) :
    (p.redrawParts surface status parts).1.shown = p.shown := by
  induction parts generalizing p surface with
  | nil => rfl
  | cons r rest ih =>
    obtain ⟨hr, hbars, -⟩ := hparts r List.mem_cons_self
    rw [redrawParts, ih fun q hq => hparts q (List.mem_cons_of_mem _ hq),
      shown_redraw_of_ne p surface status hr hbars]

/-- The lighting that is remembered is on the surface. -/
def Coherent (p : Painter Bitmap) (surface : S) : Prop :=
  ∀ lighting, p.shown = some lighting → ShowsLighting surface lighting

theorem Coherent.redrawParts (h : p.Coherent surface) (hg : p.gallery.Sized) {parts : List Part}
    (hparts : ∀ r ∈ parts, r.SparesLighting) :
    (p.redrawParts surface status parts).1.Coherent (p.redrawParts surface status parts).2 := by
  intro lighting hshown
  rw [shown_redrawParts_of_spares hparts] at hshown
  exact (showsLighting_redrawParts_iff hg hparts lighting).2 (h lighting hshown)

end Painter

/-! ## Accepted redraws -/

namespace Painter

variable {p : Painter Bitmap} {t : Traced S Bitmap} {status : Status}

theorem refusedDraws_redraw (p : Painter Bitmap) (t : Traced S Bitmap) (status : Status)
    (q : Part) :
    (p.redraw t status q).2.trace.refusedDraws =
      t.trace.refusedDraws +
        if (drawAll t (Drawing.part p.gallery p.scale status q)).2 = .ok () then 0 else 1 := by
  rw [redraw_snd, Traced.refusedDraws_paint]

theorem refusedDraws_le_redrawParts (p : Painter Bitmap) (t : Traced S Bitmap) (status : Status)
    (parts : List Part) :
    t.trace.refusedDraws ≤ (p.redrawParts t status parts).2.trace.refusedDraws := by
  induction parts generalizing p t with
  | nil => exact Nat.le_refl _
  | cons q parts ih =>
    refine Nat.le_trans ?_ (ih _ _)
    rw [refusedDraws_redraw]
    exact Nat.le_add_right ..

/-- No stroke of a redraw of parts is refused. -/
def Accepted (p : Painter Bitmap) (t : Traced S Bitmap) (status : Status) (parts : List Part) :
    Prop :=
  (p.redrawParts t status parts).2.trace.refusedDraws = t.trace.refusedDraws

theorem accepted_cons {q : Part} {parts : List Part} (h : Accepted p t status (q :: parts)) :
    (drawAll t (Drawing.part p.gallery p.scale status q)).2 = .ok () ∧
      Accepted (p.redraw t status q).1 (p.redraw t status q).2 status parts := by
  -- the count of refused draws never falls, so none was refused on the way
  have hle : (p.redraw t status q).2.trace.refusedDraws ≤ t.trace.refusedDraws :=
    Nat.le_trans (refusedDraws_le_redrawParts _ _ status parts) (Nat.le_of_eq h)
  have hfirst := p.refusedDraws_redraw t status q
  split at hfirst
  case isTrue hok => exact ⟨hok, h.trans hfirst.symm⟩
  case isFalse => omega

theorem accepted_append {xs ys : List Part} (h : Accepted p t status (xs ++ ys)) :
    Accepted p t status xs ∧
      Accepted (p.redrawParts t status xs).1 (p.redrawParts t status xs).2 status ys := by
  unfold Accepted at h ⊢
  rw [redrawParts_append] at h
  have hxs := refusedDraws_le_redrawParts p t status xs
  have hys := refusedDraws_le_redrawParts (p.redrawParts t status xs).1
    (p.redrawParts t status xs).2 status ys
  omega

/-- An accepted redraw of the lighting shows it and remembers it. -/
theorem showsLighting_of_accepted (hg : p.gallery.Sized)
    (h : Accepted p t status [.lightingBars, .effectIndex]) :
    (p.redrawParts t status [.lightingBars, .effectIndex]).1.shown = some status.lighting ∧
      ShowsLighting (p.redrawParts t status [.lightingBars, .effectIndex]).2 status.lighting := by
  obtain ⟨hbars, hrest⟩ := accepted_cons h
  have heffect := (accepted_cons hrest).1
  refine ⟨p.shown_redraw_lightingBars t hbars, ?_, showsPart_redraw (Or.inr rfl) heffect⟩
  -- the effect index is drawn after the bars, and leaves their places alone
  refine (ShowsPart.congr fun a ha x y hxy => ?_).2 (showsPart_redraw (Or.inl rfl) hbars)
  have hg' : (p.redraw t status .lightingBars).1.gallery.Sized := by rwa [gallery_redraw]
  exact pixel_redraw_of_ne hg' (by decide) (by decide) (by decide) ha hxy

/-- An accepted redraw of the lighting leaves it remembered as it is shown, whatever was redrawn
before and whichever other parts after. -/
theorem coherent_of_accepted (hg : p.gallery.Sized) {xs ys : List Part}
    (hys : ∀ q ∈ ys, q.SparesLighting)
    (h : Accepted p t status (xs ++ [.lightingBars, .effectIndex] ++ ys)) :
    (p.redrawParts t status (xs ++ [.lightingBars, .effectIndex] ++ ys)).1.Coherent
      (p.redrawParts t status (xs ++ [.lightingBars, .effectIndex] ++ ys)).2 := by
  have hlighting := (accepted_append (accepted_append h).1).2
  have hg' : (p.redrawParts t status xs).1.gallery.Sized := by rwa [gallery_redrawParts]
  obtain ⟨hshown, hshows⟩ := showsLighting_of_accepted hg' hlighting
  rw [redrawParts_append, redrawParts_append]
  refine Coherent.redrawParts ?_ (by rwa [gallery_redrawParts]) hys
  intro lighting hremembered
  obtain rfl := Option.some.inj (hshown.symm.trans hremembered)
  exact hshows

end Painter

/-! ## A painter at work -/

/-- What a painter is asked to do. -/
inductive Painter.Act
  | layers (mask : LayerMask)
  | defaultLayer (mask : LayerMask)
  | locks (locks : Locks)
  | lighting (lighting : Lighting)
  | tick (status : Status)
  | all (status : Status)

/-- The painter and its surface after an act. -/
def Painter.perform {S ι : Type} [Surface S ι] (p : Painter ι) (surface : S) :
    Painter.Act → Painter ι × S
  | .layers mask => (p, p.showLayers surface mask)
  | .defaultLayer mask => (p, p.showDefaultLayer surface mask)
  | .locks locks => (p, p.showLocks surface locks)
  | .lighting lighting => p.showLighting surface lighting
  | .tick status => p.tick surface status
  | .all status => p.redrawAll surface status

/-- The parts that an act redraws, and the status that they show. -/
def Painter.redrawn {ι : Type} (p : Painter ι) : Act → Status × List Part
  | .layers mask => ({ Status.boot .initial with layers := mask }, [.layers])
  | .defaultLayer mask => ({ Status.boot .initial with defaultLayers := mask }, [.defaultLayer])
  | .locks locks => ({ Status.boot .initial with locks }, [.locks])
  | .lighting lighting => (.boot lighting, [.lightingBars, .effectIndex])
  | .tick status => (status, p.tickParts status)
  | .all status => (status, Part.all)

theorem Painter.perform_eq {S ι : Type} [Surface S ι] (p : Painter ι) (surface : S) (act : Act) :
    p.perform surface act = p.redrawParts surface (p.redrawn act).1 (p.redrawn act).2 := by
  cases act with
  | tick status => exact p.tick_eq surface status
  | all status => exact p.redrawAll_eq surface status
  | _ => rfl

@[simp] theorem Painter.gallery_perform {S ι : Type} [Surface S ι] (p : Painter ι) (surface : S)
    (act : Act) : (p.perform surface act).1.gallery = p.gallery := by
  rw [perform_eq, gallery_redrawParts]

/-- Whether an act redraws the lighting. -/
def Painter.redrawsLighting {ι : Type} (p : Painter ι) : Painter.Act → Bool
  | .layers _ | .defaultLayer _ | .locks _ => false
  | .lighting _ | .all _ => true
  | .tick status => p.shown ≠ some status.lighting

/-- An act that does not redraw the lighting spares it. -/
theorem Painter.spares_of_not_redraws {p : Painter Bitmap} {act : Act}
    (h : p.redrawsLighting act = false) : ∀ q ∈ (p.redrawn act).2, q.SparesLighting := by
  cases act with
  | lighting lighting => cases h
  | all status => cases h
  | tick status =>
    have hskip : p.shown = some status.lighting := by simpa [redrawsLighting] using h
    rw [redrawn, tickParts, if_pos hskip]
    simp [Part.SparesLighting]
  | _ => simp [redrawn, Part.SparesLighting]

/-- An act that redraws the lighting redraws the bars and the effect index, and then spares them. -/
theorem Painter.exists_redrawn_eq {p : Painter Bitmap} {act : Act}
    (h : p.redrawsLighting act = true) :
    ∃ xs ys, (∀ q ∈ ys, q.SparesLighting) ∧
      (p.redrawn act).2 = xs ++ [.lightingBars, .effectIndex] ++ ys := by
  cases act with
  | lighting lighting => exact ⟨[], [], nofun, rfl⟩
  | all status => exact ⟨[.background, .defaultLayer, .layers, .locks], [.speed], by decide, rfl⟩
  | tick status =>
    have hredraw : p.shown ≠ some status.lighting := by simpa [redrawsLighting] using h
    exact ⟨[.speed], [], nofun, if_neg hredraw⟩
  | _ => cases h

/-- A painter at work on a surface. -/
structure Session (S : Type) where
  painter : Painter Bitmap
  surface : Traced S Bitmap
  /-- Whether no stroke was refused when the lighting was last redrawn. -/
  intact : Bool := true

namespace Session

/-- Whether no stroke of an act is refused. -/
def accepts (s : Session S) (act : Painter.Act) : Bool :=
  (s.painter.perform s.surface act).2.trace.refusedDraws = s.surface.trace.refusedDraws

/-- The session after an act. -/
def perform (s : Session S) (act : Painter.Act) : Session S where
  painter := (s.painter.perform s.surface act).1
  surface := (s.painter.perform s.surface act).2
  intact := if s.painter.redrawsLighting act then s.accepts act else s.intact

/-- The session after acts. -/
def performAll (s : Session S) (acts : List Painter.Act) : Session S := acts.foldl perform s

/-- A session before its first act: nothing is remembered. -/
def fresh (gallery : Gallery Bitmap) (scale : UInt16) (surface : S) : Session S where
  painter := ⟨gallery, scale, none⟩
  surface := .fresh surface

/-- If the lighting was last redrawn in full, what is remembered is on the surface. -/
structure Sound (s : Session S) : Prop where
  sized : s.painter.gallery.Sized
  coherent : s.intact = true → s.painter.Coherent s.surface

theorem Sound.perform {s : Session S} (h : Sound s) (act : Painter.Act) :
    Sound (s.perform act) := by
  constructor
  case sized =>
    rw [Session.perform, Painter.gallery_perform]
    exact h.sized
  case coherent =>
    intro hintact
    -- an act that spares the lighting keeps what was known of it, one that redraws it settles it
    cases hact : s.painter.redrawsLighting act with
    | false =>
      simp only [Session.perform, hact, Bool.false_eq_true, if_false] at hintact
      rw [Session.perform, Painter.perform_eq]
      exact (h.coherent hintact).redrawParts h.sized (Painter.spares_of_not_redraws hact)
    | true =>
      obtain ⟨xs, ys, hys, hparts⟩ := Painter.exists_redrawn_eq hact
      simp only [Session.perform, hact, if_true, accepts, decide_eq_true_eq] at hintact
      rw [Painter.perform_eq, hparts] at hintact
      rw [Session.perform, Painter.perform_eq, hparts]
      exact Painter.coherent_of_accepted h.sized hys hintact

theorem sound_performAll {s : Session S} (h : Sound s) (acts : List Painter.Act) :
    Sound (s.performAll acts) := by
  induction acts generalizing s with
  | nil => exact h
  | cons act rest ih => exact ih (h.perform act)

theorem sound_fresh {gallery : Gallery Bitmap} (hg : gallery.Sized) (scale : UInt16) (surface : S) :
    Sound (fresh gallery scale surface) :=
  ⟨hg, fun _ => nofun⟩

theorem showsLighting_lighting {s : Session S} (hg : s.painter.gallery.Sized) {lighting : Lighting}
    (h : s.accepts (.lighting lighting) = true) :
    ShowsLighting (s.perform (.lighting lighting)).surface lighting := by
  have hrefused := of_decide_eq_true h
  have haccepted : Painter.Accepted s.painter s.surface (.boot lighting)
      [.lightingBars, .effectIndex] := hrefused
  exact (Painter.showsLighting_of_accepted hg haccepted).2

theorem showsLighting_tick_of_ne {s : Session S} (hg : s.painter.gallery.Sized) {status : Status}
    (hne : s.painter.shown ≠ some status.lighting) (h : s.accepts (.tick status) = true) :
    ShowsLighting (s.perform (.tick status)).surface status.lighting := by
  have haccepted := of_decide_eq_true h
  rw [Painter.perform, Painter.tick_eq, Painter.tickParts, if_neg hne] at haccepted
  have hlighting := (Painter.accepted_cons haccepted).2
  have hg' : (s.painter.redraw s.surface status .speed).1.gallery.Sized := hg
  rw [Session.perform, Painter.perform, Painter.tick_eq, Painter.tickParts, if_neg hne]
  exact (Painter.showsLighting_of_accepted hg' hlighting).2

theorem showsLighting_tick_of_eq {s : Session S} (hg : s.painter.gallery.Sized) {status : Status}
    (heq : s.painter.shown = some status.lighting) :
    ShowsLighting (s.perform (.tick status)).surface status.lighting ↔
      ShowsLighting s.surface status.lighting := by
  rw [Session.perform, Painter.perform, Painter.tick_eq, Painter.tickParts, if_pos heq]
  exact Painter.showsLighting_redrawParts_iff hg (by decide) _

/-- **When the lighting is on the screen.** A change of the lighting in which no stroke is refused
shows it. A periodic redraw in which none is refused leaves its lighting on the screen exactly if
another one was remembered or it was on the screen before; so it does if none was refused when the
lighting was last redrawn. -/
theorem showsLighting_of_accepts (surface : S) {gallery : Gallery Bitmap} (hg : gallery.Sized)
    (scale : UInt16) (acts : List Painter.Act) :
    let s := (fresh gallery scale surface).performAll acts
    (∀ lighting, s.accepts (.lighting lighting) = true →
      ShowsLighting (s.perform (.lighting lighting)).surface lighting) ∧
    ∀ status, s.accepts (.tick status) = true →
      (ShowsLighting (s.perform (.tick status)).surface status.lighting ↔
        s.painter.shown ≠ some status.lighting ∨ ShowsLighting s.surface status.lighting) ∧
      (s.intact = true → ShowsLighting (s.perform (.tick status)).surface status.lighting) := by
  intro s
  have hsound : Sound s := sound_performAll (sound_fresh hg scale surface) acts
  refine ⟨fun _ h => showsLighting_lighting hsound.sized h, fun status h => ?_⟩
  by_cases hshown : s.painter.shown = some status.lighting
  · -- the redraw leaves the lighting as it is, and the invariant says how that is
    have hsame := showsLighting_tick_of_eq hsound.sized hshown
    refine ⟨?_, fun hintact => hsame.2 (hsound.coherent hintact _ hshown)⟩
    rw [hsame]
    exact ⟨Or.inr, fun hor => hor.resolve_left fun hne => hne hshown⟩
  · have hshows := showsLighting_tick_of_ne hsound.sized hshown h
    exact ⟨⟨fun _ => Or.inl hshown, fun _ => hshows⟩, fun _ => hshows⟩

end Session

/-! ## A refused effect index -/

/-- An ideal sheet: every call is accepted, and a stroke sets what it covers. -/
structure Sheet where
  /-- Whether a pixel is on. -/
  pixel : Nat → Nat → Bool := fun _ _ => false

namespace Sheet

instance : PixelSurface Sheet where
  draw sheet stroke := (⟨fun x y => (stroke.ink x y).getD (sheet.pixel x y)⟩, .ok ())
  flush sheet := (sheet, .ok ())
  power sheet _ := (sheet, .ok ())
  pixel := Sheet.pixel
  pixel_draw_of_ok _ _ := rfl
  pixel_draw_of_error := nofun
  pixel_power _ _ := rfl
  pixel_flush _ := rfl

end Sheet

namespace Session

/-- A sheet that refuses the call that 9 came before: the first square of the effect index. -/
def refusesSquare : Faulty Sheet := { surface := {}, refuses := (· == 9) }

/-- A session in which a lighting is changed so often. -/
def relit (times : Nat) : Session (Faulty Sheet) :=
  (fresh .builtin 150 refusesSquare).performAll (List.replicate times (.lighting .initial))

/-- A lighting of which a square was refused is shown when it is changed once more, and stays on the
screen. -/
theorem showsLighting_relit_twice :
    ((relit 1).accepts (.lighting .initial) = true ∧ ShowsLighting (relit 2).surface .initial) ∧
      (relit 2).accepts (.tick (.boot .initial)) = true ∧ (relit 2).intact = true ∧
      ShowsLighting ((relit 2).perform (.tick (.boot .initial))).surface .initial := by
  have hsized := Gallery.complete_builtin.sized
  have hlit : (relit 1).accepts (.lighting .initial) = true := by decide +kernel
  have htick : (relit 2).accepts (.tick (.boot .initial)) = true := by decide +kernel
  have hintact : (relit 2).intact = true := by decide +kernel
  refine ⟨⟨hlit, ?_⟩, htick, hintact, ?_⟩
  · exact (showsLighting_of_accepts refusesSquare hsized 150 [.lighting .initial]).1 _ hlit
  · exact ((showsLighting_of_accepts refusesSquare hsized 150
      [.lighting .initial, .lighting .initial]).2 _ htick).2 hintact

/-- The periodic redraw leaves out an effect index of which the first square was refused. -/
theorem not_showsLighting_relit_once :
    (relit 1).accepts (.tick (.boot .initial)) = true ∧
      ¬ShowsLighting ((relit 1).perform (.tick (.boot .initial))).surface .initial := by
  have hink : Drawing.ink (Drawing.effectIndex .initial) 117 26 = some true := by decide +kernel
  have hpixel : pixel ((relit 1).perform (.tick (.boot .initial))).surface 117 26 = false := by
    decide +kernel
  refine ⟨by decide +kernel, ?_⟩
  rintro ⟨-, heffect⟩
  -- the corner of the refused square is dark, but lit in a drawing of the lighting
  have hshown := heffect ⟨117, 26, 8, 8⟩ (by decide) 117 26 (by decide)
  rw [hink, hpixel] at hshown
  cases hshown

end Session

end StatusPanel
