import StatusPanel.Proofs.Screen.Shows
import StatusPanel.Screen.Painter

/-!
# Redraws of a panel that is ready

A panel that was configured accepts every stroke that lies on it, so a painter with all its
pictures redraws each part in full. What the panel shows after the redraw of a part is the status
with that part brought up to date; after the redraw of the whole screen it is the status, whatever
was drawn before.

## Main definitions

* `Panel.slate`: an empty panel that was configured
* `InStep`: a painter and its panel are in step with a status
* `Painter.picture`: the pixels of a status, redrawn on the empty panel

## Main results

* `Shows.redraw`: the redraw of a part changes the part
* `inStep_redrawAll`: the redraw of the whole screen shows the status
* `InStep.redrawParts`, `InStep.tick`: what redraws keep in step
* `InStep.pixel_eq_picture`: a panel in step with a status has its picture
-/

namespace StatusPanel

open PixelSurface

/-! ## What a painter keeps -/

namespace Painter

variable {S ι : Type} [Surface S ι] (p : Painter ι) (surface : S)

@[simp] theorem gallery_showBars (lighting : Lighting) :
    (p.showBars surface lighting).1.gallery = p.gallery := by
  rw [fst_showBars]
  split <;> rfl

@[simp] theorem scale_showBars (lighting : Lighting) :
    (p.showBars surface lighting).1.scale = p.scale := by
  rw [fst_showBars]
  split <;> rfl

@[simp] theorem gallery_redraw (status : Status) (q : Part) :
    (p.redraw surface status q).1.gallery = p.gallery := by
  cases q with
  | background =>
    rw [redraw, fst_showBackground]
    split <;> rfl
  | lightingBars => exact p.gallery_showBars surface _
  | _ => rfl

@[simp] theorem scale_redraw (status : Status) (q : Part) :
    (p.redraw surface status q).1.scale = p.scale := by
  cases q with
  | background =>
    rw [redraw, fst_showBackground]
    split <;> rfl
  | lightingBars => exact p.scale_showBars surface _
  | _ => rfl

/-- Only the background and the bars change what is remembered. -/
theorem shown_redraw_of_ne (status : Status) {q : Part} (hq : q ≠ .background)
    (hb : q ≠ .lightingBars) : (p.redraw surface status q).1.shown = p.shown := by
  cases q with
  | background => exact absurd rfl hq
  | lightingBars => exact absurd rfl hb
  | _ => rfl

/-- The bars of a lighting are remembered if all of them were drawn. -/
theorem shown_redraw_lightingBars {status : Status}
    (hok : (drawAll surface (Drawing.part p.gallery p.scale status .lightingBars)).2 = .ok ()) :
    (p.redraw surface status .lightingBars).1.shown = some status.lighting := by
  rw [Drawing.part] at hok
  rw [redraw, fst_showBars, hok]

end Painter

/-! ## Redraws -/

/-- An empty panel that was configured, on a bus that accepts every write. -/
def Panel.slate : Panel := { bus := {}, address := 0x3C, ready := true }

section

variable {painter : Painter Bitmap} {panel : Panel}

theorem drawAll_part_of_ready (hg : painter.gallery.Complete) (hr : panel.ready = true)
    (status : Status) (q : Part) :
    (drawAll panel (Drawing.part painter.gallery painter.scale status q)).2 = .ok () :=
  Panel.drawAll_of_fits hr fun _ hs => Drawing.fits_part hg.sized hs

theorem ready_redraw (status : Status) (q : Part) :
    (painter.redraw panel status q).2.ready = panel.ready := by
  rw [Painter.redraw_snd]
  exact Panel.ready_paint ..

theorem Shows.redraw {screen : Screen} (hs : Shows panel screen) (hg : painter.gallery.Complete)
    (hr : panel.ready = true) (status : Status) {q : Part} (hq : q ≠ .background) :
    Shows (painter.redraw panel status q).2
      (screen.set q (Drawing.part painter.gallery painter.scale status q)) := by
  rw [Painter.redraw_snd]
  exact hs.paint hq (drawAll_part_of_ready hg hr status q)
    (fun _ _ h => Drawing.has_of_covers_part hg.sized h)
    (fun _ _ h => (Drawing.covers_part_iff hg).2 (hs.within hq h))

theorem shows_redraw_background (hg : painter.gallery.Complete) (hr : panel.ready = true)
    (status : Status) :
    Shows (painter.redraw panel status .background).2
      (.only (Drawing.part painter.gallery painter.scale status .background)) := by
  rw [Painter.redraw_snd]
  refine shows_background (drawAll_part_of_ready hg hr status _) fun x y h => ?_
  refine (Drawing.covers_part_iff hg).2 ⟨_, List.mem_singleton_self _, ?_⟩
  exact ⟨Nat.zero_le _, h.1, Nat.zero_le _, h.2⟩

end

/-! ## Redraws of several parts -/

section

variable {painter : Painter Bitmap} {panel : Panel}

/-- Redrawing parts apart from the background changes these parts. -/
theorem shows_redrawParts (hg : painter.gallery.Complete) (hr : panel.ready = true)
    (status : Status) {screen : Screen} (hs : Shows panel screen) {parts : List Part}
    (hp : ∀ q ∈ parts, q ≠ .background) :
    Shows (painter.redrawParts panel status parts).2 fun q =>
      if q ∈ parts then Drawing.part painter.gallery painter.scale status q else screen q := by
  -- Induction on the parts, over any screen: each redraw sets one part of it.
  induction parts generalizing painter panel screen with
  | nil => exact hs.congr fun r => if_neg List.not_mem_nil
  | cons q parts ih =>
    have hq : q ≠ .background := hp q List.mem_cons_self
    have hg' : (painter.redraw panel status q).1.gallery.Complete := by
      rwa [Painter.gallery_redraw]
    have hr' : (painter.redraw panel status q).2.ready = true := by rwa [ready_redraw]
    have h := ih hg' hr' (hs.redraw hg hr status hq) fun r hr => hp r (List.mem_cons_of_mem _ hr)
    rw [Painter.gallery_redraw, Painter.scale_redraw] at h
    -- a part that is redrawn again later shows the same strokes
    refine h.congr fun r => ?_
    by_cases hrq : r = q
    · subst hrq
      simp
    · simp [hrq, screen.set_of_ne hrq]

/-- Redrawing parts apart from the background ends with the lighting remembered, if the bars are
among them or it was before. -/
theorem shown_redrawParts (hg : painter.gallery.Complete) (hr : panel.ready = true)
    (status : Status) {parts : List Part} (hp : ∀ q ∈ parts, q ≠ .background)
    (hb : .lightingBars ∈ parts ∨ painter.shown = some status.lighting) :
    (painter.redrawParts panel status parts).1.shown = some status.lighting := by
  induction parts generalizing painter panel with
  | nil =>
    rcases hb with hb | hb
    · cases hb
    · exact hb
  | cons q parts ih =>
    have hg' : (painter.redraw panel status q).1.gallery.Complete := by
      rwa [Painter.gallery_redraw]
    have hr' : (painter.redraw panel status q).2.ready = true := by rwa [ready_redraw]
    rw [Painter.redrawParts]
    refine ih hg' hr' (fun r hr => hp r (List.mem_cons_of_mem _ hr)) ?_
    -- the redraw of the bars remembers the lighting, and no later one forgets it
    by_cases hq : q = .lightingBars
    · subst hq
      exact Or.inr (painter.shown_redraw_lightingBars panel (drawAll_part_of_ready hg hr status _))
    · rw [Painter.shown_redraw_of_ne _ _ status (hp q List.mem_cons_self) hq]
      simpa [Ne.symm hq] using hb

end

namespace Painter

@[simp] theorem gallery_redrawParts {S ι : Type} [Surface S ι] (p : Painter ι) (surface : S)
    (status : Status) (parts : List Part) :
    (p.redrawParts surface status parts).1.gallery = p.gallery := by
  induction parts generalizing p surface with
  | nil => rfl
  | cons q parts ih => rw [redrawParts, ih, gallery_redraw]

@[simp] theorem scale_redrawParts {S ι : Type} [Surface S ι] (p : Painter ι) (surface : S)
    (status : Status) (parts : List Part) :
    (p.redrawParts surface status parts).1.scale = p.scale := by
  induction parts generalizing p surface with
  | nil => rfl
  | cons q parts ih => rw [redrawParts, ih, scale_redraw]

@[simp] theorem ready_redrawParts (p : Painter Bitmap) (panel : Panel) (status : Status)
    (parts : List Part) : (p.redrawParts panel status parts).2.ready = panel.ready := by
  induction parts generalizing p panel with
  | nil => rfl
  | cons q parts ih => rw [redrawParts, ih, ready_redraw]

end Painter

/-! ## Painter and panel in step -/

/-- A painter and its panel are in step with a status: the panel shows it in full, and the painter
remembers its lighting. -/
structure InStep (painter : Painter Bitmap) (panel : Panel) (status : Status) : Prop where
  complete : painter.gallery.Complete
  ready : panel.ready = true
  shows : Shows panel (Drawing.part painter.gallery painter.scale status)
  remembered : painter.shown = some status.lighting

/-- The redraw of the whole screen shows the status, whatever was shown before. -/
theorem inStep_redrawAll {painter : Painter Bitmap} {panel : Panel}
    (hg : painter.gallery.Complete) (hr : panel.ready = true) (status : Status) :
    InStep (painter.redrawAll panel status).1 (painter.redrawAll panel status).2 status := by
  have hp : ∀ q ∈ Part.all.tail, q ≠ .background := by decide
  have hg' : (painter.redraw panel status .background).1.gallery.Complete := by
    rwa [Painter.gallery_redraw]
  have hr' : (painter.redraw panel status .background).2.ready = true := by rwa [ready_redraw]
  -- the background first, which wipes the screen, and then every other part
  have hs := shows_redrawParts hg' hr' status (shows_redraw_background hg hr status) hp
  rw [Painter.gallery_redraw, Painter.scale_redraw] at hs
  rw [Painter.redrawAll_eq, show Part.all = .background :: Part.all.tail from rfl,
    Painter.redrawParts]
  constructor
  case complete => rwa [Painter.gallery_redrawParts]
  case ready => rwa [Painter.ready_redrawParts]
  case shows =>
    rw [Painter.gallery_redrawParts, Painter.scale_redrawParts, Painter.gallery_redraw,
      Painter.scale_redraw]
    refine hs.congr fun q => ?_
    cases q <;> rfl
  case remembered => exact shown_redrawParts hg' hr' status hp (Or.inl (by decide))

namespace InStep

variable {painter : Painter Bitmap} {panel : Panel} {status : Status}

/-- Redrawing parts apart from the background follows a change of what they show. -/
theorem redrawParts (h : InStep painter panel status) (next : Status) {parts : List Part}
    (hp : ∀ q ∈ parts, q ≠ .background)
    (hl : .lightingBars ∈ parts ∨ next.lighting = status.lighting)
    (hsame : ∀ q, q ∉ parts → Drawing.part painter.gallery painter.scale next q =
      Drawing.part painter.gallery painter.scale status q) :
    InStep (painter.redrawParts panel next parts).1 (painter.redrawParts panel next parts).2
      next := by
  constructor
  case complete =>
    rw [Painter.gallery_redrawParts]
    exact h.complete
  case ready =>
    rw [Painter.ready_redrawParts]
    exact h.ready
  case shows =>
    rw [Painter.gallery_redrawParts, Painter.scale_redrawParts]
    refine (shows_redrawParts h.complete h.ready next h.shows hp).congr fun q => ?_
    by_cases hq : q ∈ parts
    · rw [if_pos hq]
    · rw [if_neg hq, hsame q hq]
  case remembered =>
    refine shown_redrawParts h.complete h.ready next hp (hl.imp_right fun he => ?_)
    rw [he]
    exact h.remembered

/-- The periodic redraw follows the typing speed and the lighting: if it leaves the bars alone, the
lighting that is remembered is on the screen. -/
theorem tick (h : InStep painter panel status) (now : Status) :
    InStep (painter.tick panel now).1 (painter.tick panel now).2
      { status with wpm := now.wpm, lighting := now.lighting } := by
  have heq : painter.tick panel now =
      painter.tick panel { status with wpm := now.wpm, lighting := now.lighting } := rfl
  rw [heq, Painter.tick_eq, Painter.tickParts]
  split
  case isTrue hskip =>
    -- what is remembered is on the screen, so the bars may stay
    have hl : now.lighting = status.lighting :=
      (Option.some.inj (h.remembered.symm.trans hskip)).symm
    refine h.redrawParts _ (by decide) (Or.inr hl) fun q hq => ?_
    cases q <;> first | rfl | simp_all [Drawing.part]
  case isFalse =>
    refine h.redrawParts _ (by decide) (Or.inl (by decide)) fun q hq => ?_
    cases q <;> first | rfl | simp_all

end InStep

/-! ## The picture of a status -/

/-- The pixels of a status: those of the whole screen, redrawn on the empty panel. -/
def Painter.picture (gallery : Gallery Bitmap) (scale : UInt16) (status : Status) :
    Nat → Nat → Bool :=
  pixel (redrawAll ⟨gallery, scale, none⟩ Panel.slate status).2

/-- The picture of a status shows all of its parts. -/
theorem Painter.shows_picture {gallery : Gallery Bitmap} (hg : gallery.Complete) (scale : UInt16)
    (status : Status) :
    Shows (redrawAll ⟨gallery, scale, none⟩ Panel.slate status).2
      (Drawing.part gallery scale status) := by
  let blank : Painter Bitmap := ⟨gallery, scale, none⟩
  have hblank : blank.gallery.Complete := hg
  have hslate : Panel.slate.ready = true := rfl
  have hshows := (inStep_redrawAll hblank hslate status).shows
  rwa [redrawAll_eq, gallery_redrawParts, scale_redrawParts, ← redrawAll_eq] at hshows

/-- A panel in step with a status has its picture. -/
theorem InStep.pixel_eq_picture {painter : Painter Bitmap} {panel : Panel} {status : Status}
    (h : InStep painter panel status) (x y : Nat) :
    panel.canvas.pixel x y = Painter.picture painter.gallery painter.scale status x y := by
  by_cases hxy : OnPanel x y
  · -- both show the status, whatever was drawn before
    exact h.shows.pixel_eq (Painter.shows_picture h.complete painter.scale status) hxy
  · rw [Painter.picture, Panel.pixel_eq, Canvas.pixel_of_not hxy, Canvas.pixel_of_not hxy]

end StatusPanel
