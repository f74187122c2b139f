import StatusPanel.Proofs.Controller.Run
import StatusPanel.Proofs.Panel.Steady
import StatusPanel.Proofs.Screen.Redraw

/-!
# Incremental redraws

A controller redraws only the parts that an input changes. It follows a status: the one of its boot,
brought up to date by every event it handles and every bar redraw of a panel that is on. At any time
the picture is the one that a redraw of the whole screen would draw from that status, whatever
writes the bus refuses; and if the last flush was accepted, so is the memory of the panel.

## Main definitions

* `Controller.told`, `Controller.follow`: the status that a controller follows
* `Controller.Tracks`: a controller's painter and panel are in step with a status
* `Settled`: after an accepted flush no page is to be sent

## Main results

* `Controller.Tracks.take`: every input keeps the controller in step
* `Controller.pixel_eq_picture_of_follow`: the picture and the memory of every run
-/

namespace StatusPanel

/-! ## Power commands and events -/

/-- What a surface shows depends on its pixels only. -/
theorem Shows.of_pixel_eq {S : Type} [PixelSurface S] {surface other : S} {screen : Screen}
    (hs : Shows surface screen) (h : PixelSurface.pixel other = PixelSurface.pixel surface) :
    Shows other screen where
  within := hs.within
  part hq _ _ _ hxy hon := by
    rw [h]
    exact hs.part hq hxy hon
  rest hxy hn := by
    rw [h]
    exact hs.rest hxy hn

namespace InStep

variable {painter : Painter Bitmap} {panel : Panel} {status : Status}

theorem power (h : InStep painter panel status) (on : Bool) :
    InStep painter (Surface.power panel on).1 status where
  complete := h.complete
  ready := (panel.ready_power on).trans h.ready
  shows := h.shows.of_pixel_eq (PixelSurface.pixel_power panel on)
  remembered := h.remembered

/-- The redraw of what an event changes follows the event. -/
theorem event (h : InStep painter panel status) (event : Event) :
    InStep (painter.redrawParts panel (status.apply event) event.parts).1
      (painter.redrawParts panel (status.apply event) event.parts).2 (status.apply event) := by
  refine h.redrawParts (status.apply event) ?_ ?_ ?_
  · cases event <;> simp [Event.parts]
  · cases event <;> simp [Event.parts, Status.apply]
  · -- a part that the event does not change is drawn from what it leaves alone
    intro q hq
    cases event <;> cases q <;> first | rfl | simp_all [Event.parts]

end InStep

namespace Controller

variable {S ι : Type} [Surface S ι] {capacity : Nat}

/-! ## The status that is followed -/

/-- The status that a controller is told by an input: an event that it handles, or what a bar redraw
of a panel that is on shows. -/
def told (c : Controller S ι) (shown : Status) : Input capacity → Status
  | .event _ event _ _ => if c.shutDown then shown else shown.apply event
  | .barRedraw status =>
    if c.shutDown || !c.power.powered then shown
    else { shown with wpm := status.wpm, lighting := status.lighting }
  | .activity _ | .idleCheck _ | .suspend | .wake | .shutdown => shown

/-- A controller after inputs, with the status that it follows. -/
def follow (c : Controller S ι) (shown : Status) :
    List (Input capacity) → Controller S ι × Status
  | [] => (c, shown)
  | input :: rest => follow (c.take input) (c.told shown input) rest

theorem driven_follow (c : Controller S ι) (shown : Status) (inputs : List (Input capacity)) :
    Driven c.surface (c.follow shown inputs).1.surface := by
  induction inputs generalizing c shown with
  | nil => exact .refl
  | cons input rest ih => exact (c.driven_take input).trans (ih _ _)

/-- Controllers of surfaces that answer alike follow the same status. -/
theorem view_follow {T : Type} [Surface T ι] {f : S → T} (hf : Surface.Alike f)
    (c : Controller S ι) (shown : Status) (inputs : List (Input capacity)) :
    (c.view f).follow shown inputs = (c.follow shown inputs).map (·.view f) id := by
  induction inputs generalizing c shown with
  | nil => rfl
  | cons input rest ih =>
    rw [follow, follow, view_take hf]
    exact ih _ _

/-! ## Painter and panel in step -/

/-- A controller's painter and panel are in step with a status, with these pictures and this
scale. -/
structure Tracks (c : Controller Panel Bitmap) (gallery : Gallery Bitmap) (scale : UInt16)
    (shown : Status) : Prop where
  inStep : InStep c.painter c.surface shown
  gallery : c.painter.gallery = gallery
  scale : c.painter.scale = scale

namespace Tracks

variable {c : Controller Panel Bitmap} {gallery : Gallery Bitmap} {scale : UInt16}
  {shown : Status}

theorem switch (h : Tracks c gallery scale shown) (s : Switch) :
    Tracks (c.switch s) gallery scale shown := by
  cases s with
  | stay => exact h
  | powerOn => exact ⟨h.inStep.power true, h.gallery, h.scale⟩
  | powerOff => exact ⟨h.inStep.power false, h.gallery, h.scale⟩

theorem stepPower (h : Tracks c gallery scale shown) (step : Power × Switch) :
    Tracks (c.stepPower step) gallery scale shown := by
  have hpower : Tracks { c with power := step.1 } gallery scale shown :=
    ⟨h.inStep, h.gallery, h.scale⟩
  exact hpower.switch step.2

/-- A redraw of parts that leaves painter and panel in step with a status. -/
theorem showParts (hgallery : c.painter.gallery = gallery) (hscale : c.painter.scale = scale)
    {status next : Status} {parts : List Part}
    (hnext : InStep (c.painter.redrawParts c.surface status parts).1
      (c.painter.redrawParts c.surface status parts).2 next) :
    Tracks (c.showParts status parts) gallery scale next where
  inStep := hnext
  gallery := (Painter.gallery_redrawParts ..).trans hgallery
  scale := (Painter.scale_redrawParts ..).trans hscale

theorem withTokens (h : Tracks c gallery scale shown) (idleToken barToken : Option Token) :
    Tracks (c.withTokens idleToken barToken) gallery scale shown :=
  ⟨h.inStep, h.gallery, h.scale⟩

/-- A plan whose redraw leaves painter and panel in step with a status does so after its power
step. -/
theorem execute (h : Tracks c gallery scale shown) {plan : Plan} {next : Status}
    (hnext : ∀ {panel : Panel}, InStep c.painter panel shown →
      InStep (c.painter.redrawParts panel plan.status plan.parts).1
        (c.painter.redrawParts panel plan.status plan.parts).2 next) :
    Tracks (c.execute plan) gallery scale next := by
  have hends : Tracks { c with shutDown := plan.ends } gallery scale shown :=
    ⟨h.inStep, h.gallery, h.scale⟩
  have hstep := hends.stepPower plan.step
  have hpanel := hstep.inStep
  refine showParts hstep.gallery hstep.scale ?_
  rw [painter_stepPower] at hpanel ⊢
  exact hnext hpanel

/-- Every input keeps the controller in step with the status that it follows. -/
theorem take (h : Tracks c gallery scale shown) (input : Input capacity) :
    Tracks (c.take input) gallery scale (c.told shown input) := by
  cases hlive : c.shutDown with
  | true =>
    have htold : c.told shown input = shown := by cases input <;> simp [told, hlive]
    rwa [take_of_shutDown hlive, htold]
  | false =>
    rw [take_of_live hlive shown]
    refine h.execute fun {panel} hpanel => ?_
    cases input with
    | event agenda event status now =>
      have htold : c.told shown (.event agenda event status now) = shown.apply event := by
        simp [told, hlive]
      have hevent := hpanel.event event
      rw [htold]
      -- the events of the host redraw nothing and change no status
      cases event <;> exact hevent
    | barRedraw status =>
      cases hpowered : c.power.powered with
      | true =>
        have hticked := hpanel.tick status
        rw [Painter.tick_eq] at hticked
        simpa [told, plan, hlive, hpowered] using hticked
      | false => simpa [told, plan, hlive, hpowered, Painter.redrawParts] using hpanel
    | activity now => exact hpanel
    | idleCheck now => exact hpanel
    | suspend => exact hpanel
    | wake => exact hpanel
    | shutdown => exact hpanel

/-- In every run the controller is in step with the status that it follows. -/
theorem follow (h : Tracks c gallery scale shown) (inputs : List (Input capacity)) :
    Tracks (c.follow shown inputs).1 gallery scale (c.follow shown inputs).2 := by
  induction inputs generalizing c shown with
  | nil => exact h
  | cons input rest ih => exact ih (h.take input)

theorem pixel_eq_picture (h : Tracks c gallery scale shown) (x y : Nat) :
    c.surface.canvas.pixel x y = Painter.picture gallery scale shown x y := by
  rw [← h.gallery, ← h.scale]
  exact h.inStep.pixel_eq_picture x y

end Tracks

/-- A controller right after its boot with the built-in pictures. -/
def booted {S : Type} [Surface S Bitmap] (surface : S) (settings : Settings) (born : UInt32)
    (agenda : Agenda capacity) (status : Status) (now : UInt32) : Controller S Bitmap :=
  ((start surface settings born).boot (Bitmap.load Builtin.table) agenda status now).1

theorem ready_stepPower (c : Controller Panel Bitmap) (step : Power × Switch) :
    (c.stepPower step).surface.ready = c.surface.ready := by
  obtain ⟨power, s⟩ := step
  cases s with
  | stay => rfl
  | powerOn => exact c.surface.ready_power true
  | powerOff => exact c.surface.ready_power false

/-- The first screen of a panel that is ready shows the status of the boot. -/
theorem tracks_booted {panel : Panel} (hr : panel.ready = true) (settings : Settings)
    (born : UInt32) (agenda : Agenda capacity) (status : Status) (now : UInt32) :
    Tracks (booted panel settings born agenda status now) .builtin settings.typing.scaleMax
      status := by
  -- The pictures load, the panel is woken, and the first screen is drawn.
  let loaded : Controller Panel Bitmap :=
    (start panel settings born).load (Bitmap.load Builtin.table)
  let awake := loaded.stepPower (loaded.power.activity now)
  have hready : awake.surface.ready = true := (ready_stepPower loaded _).trans hr
  have hpainter : awake.painter = ⟨.builtin, settings.typing.scaleMax, none⟩ :=
    painter_stepPower loaded _
  have hgallery : awake.painter.gallery = .builtin := congrArg Painter.gallery hpainter
  have hscale : awake.painter.scale = settings.typing.scaleMax := congrArg Painter.scale hpainter
  have hdrawn := inStep_redrawAll (hgallery ▸ Gallery.complete_builtin) hready status
  rw [Painter.redrawAll_eq] at hdrawn
  rw [booted, fst_boot]
  exact (Tracks.showParts hgallery hscale hdrawn).withTokens _ _

end Controller

/-! ## The memory of the panel -/

/-- If the last flush was accepted, no page is to be sent. -/
def Settled (t : Traced Panel Bitmap) : Prop :=
  t.trace.lastFlush = some (.ok ()) → ∀ page < 8, t.surface.canvas.isDirty page = false

namespace Settled

theorem paint (t : Traced Panel Bitmap) (strokes : List (Stroke Bitmap)) :
    Settled (StatusPanel.paint t strokes).1 := by
  intro hlast page hpage
  rw [StatusPanel.paint, Traced.flush_eq] at hlast ⊢
  rw [Trace.lastFlush_flush, Option.some_inj] at hlast
  exact Panel.isDirty_flush_of_ok hlast hpage

theorem power {t : Traced Panel Bitmap} (h : Settled t) (on : Bool) :
    Settled (Surface.power t on).1 := by
  intro hlast page hpage
  rw [Traced.power_eq] at hlast ⊢
  rw [Trace.lastFlush_power] at hlast
  have hcanvas : (Surface.power t.surface on).1.canvas = t.surface.canvas :=
    t.surface.canvas_power on
  rw [hcanvas]
  exact h hlast page hpage

theorem of_driven {before after : Traced Panel Bitmap} (h : Driven before after)
    (hbefore : Settled before) : Settled after :=
  h.holds (fun t strokes _ => Settled.paint t strokes) (fun _ on ht => ht.power on) hbefore

end Settled

namespace Controller

variable {capacity : Nat}

theorem driven_booted {S : Type} [Surface S Bitmap] (surface : S) (settings : Settings)
    (born : UInt32) (agenda : Agenda capacity) (status : Status) (now : UInt32) :
    Driven surface (booted surface settings born agenda status now).surface :=
  driven_boot (start surface settings born) _ agenda status now

/-- **Incremental redraws agree with a redraw of the whole screen.** After the boot of a panel that
was brought up, and after any inputs, whatever writes the bus refuses, the picture is that of the
status that was followed; and if the last flush was accepted, the memory of the panel holds it. -/
theorem pixel_eq_picture_of_follow {panel : Panel} (hup : panel.bringUp.2 = .ok ())
    (before : Memory) (settings : Settings) (born : UInt32) (agenda : Agenda capacity)
    (status : Status) (now : UInt32) (inputs : List (Input capacity)) :
    let run := (booted panel.bringUp.1 settings born agenda status now).follow status inputs
    let panelTraced : Traced Panel Bitmap := .fresh panel.bringUp.1
    let traced := (booted panelTraced settings born agenda status now).follow status inputs
    let picture := Painter.picture .builtin settings.typing.scaleMax run.2
    run.1.surface.canvas.pixel = picture ∧
      (traced.1.surface.trace.lastFlush = some (.ok ()) →
        ∀ x y, OnPanel x y → (run.1.surface.memory before).pixel x y = picture x y) := by
  intro run panelTraced traced picture
  obtain ⟨hready, hmirrors⟩ := Panel.bringUp_of_ok hup before
  -- the first screen puts the controller in step, and every input keeps it there
  have hpicture : ∀ x y, run.1.surface.canvas.pixel x y = picture x y :=
    ((tracks_booted hready settings born agenda status now).follow inputs).pixel_eq_picture
  refine ⟨funext fun x => funext (hpicture x), fun hlast x y hxy => ?_⟩
  have hdriven : Driven panel.bringUp.1 run.1.surface :=
    (driven_booted _ settings born agenda status now).trans (driven_follow _ status inputs)
  have hmirrored := Panel.Mirrors.of_driven hdriven hmirrors
  -- the traced panel is the panel, so the accepted flush left it with no page to be sent
  have hsame : traced.1.surface.surface = run.1.surface := by
    have hview : run = traced.map (·.view Traced.surface) id := by
      rw [← view_follow Traced.alike, booted, ← view_boot Traced.alike]
      rfl
    rw [hview]
    rfl
  have hsettled : Settled traced.1.surface := by
    refine Settled.of_driven ((driven_booted _ settings born agenda status now).trans
      (driven_follow _ status inputs)) ?_
    nofun
  have hclean := hsettled hlast (y / 8) (Nat.div_lt_of_lt_mul hxy.2)
  rw [hsame] at hclean
  rw [← hpicture]
  exact hmirrored x y hxy hclean

theorem lastFlush_showParts_of_steady {panel : Panel} (h : panel.bus.Steady)
    {c : Controller (Traced Panel Bitmap) Bitmap}
    (hd : Driven (.fresh panel.bringUp.1) c.surface) (status : Status) (q : Part) :
    (c.showParts status [q]).surface.trace.lastFlush = some (.ok ()) := by
  have hfaithful : c.surface.surface.Faithful .zero :=
    .of_driven (Traced.alike.driven hd) (Panel.faithful_bringUp h .zero)
  let strokes := Drawing.part c.painter.gallery c.painter.scale status q
  have hpaint : (c.showParts status [q]).surface = (paint c.surface strokes).1 :=
    Painter.redraw_snd c.painter c.surface status q
  have hdrawn : (drawAll c.surface.surface strokes).1 = (drawAll c.surface strokes).1.surface :=
    congrArg Prod.fst (Traced.alike.drawAll c.surface strokes)
  have hready := (Panel.ready_drawAll c.surface.surface strokes).trans hfaithful.ready
  have hsteady := Panel.steady_drawAll hfaithful.steady strokes
  rw [hpaint, paint, Traced.flush_eq, Trace.lastFlush_flush, ← hdrawn]
  exact congrArg some (Panel.flush_of_steady hsteady hready).1

theorem shutDown_booted {S : Type} [Surface S Bitmap] (surface : S) (settings : Settings)
    (born : UInt32) (agenda : Agenda capacity) (status : Status) (now : UInt32) :
    (booted surface settings born agenda status now).shutDown = false := by
  rw [booted, fst_boot, shutDown_withTokens, shutDown_showParts, shutDown_stepPower]
  rfl

theorem lastFlush_layers_of_steady {panel : Panel} (h : panel.bus.Steady) (settings : Settings)
    (born : UInt32) (agenda : Agenda capacity) (status known : Status) (now later : UInt32)
    (mask : LayerMask) :
    ((booted (.fresh panel.bringUp.1 : Traced Panel Bitmap) settings born agenda status now).follow
      status [.event agenda (.layers mask) known later]).1.surface.trace.lastFlush =
        some (.ok ()) := by
  let c := booted (.fresh panel.bringUp.1 : Traced Panel Bitmap) settings born agenda status now
  have hlive : c.shutDown = false := shutDown_booted ..
  have hactive : (Event.layers mask).isActivity = true := rfl
  have hd := (driven_booted (.fresh panel.bringUp.1 : Traced Panel Bitmap) settings born agenda
    status now).trans (driven_stepPower c (c.power.activity later))
  rw [follow, follow, Controller.take, fst_handle_of_isActivity hlive agenda hactive status]
  exact lastFlush_showParts_of_steady h hd _ .layers

/-- A panel with nothing sent to it yet. -/
def newPanel : Panel := { bus := {}, address := 0x3C }

/-- A report of the layers. -/
def layersReport : Input 4 := .event .empty (.layers ⟨4⟩) (.boot .initial) 10

/-- After a report of the layers the memory of the panel holds the new picture. -/
theorem pixel_memory_eq_picture_layers :
    newPanel.bringUp.2 = .ok () ∧
      ∀ x y, OnPanel x y →
        (((booted newPanel.bringUp.1 .standard 0 (.empty : Agenda 4) (.boot .initial) 0).follow
          (.boot .initial) [layersReport]).1.surface.memory .zero).pixel x y =
          Painter.picture .builtin Settings.standard.typing.scaleMax
            ((Status.boot .initial).apply (.layers ⟨4⟩)) x y := by
  have hsteady : newPanel.bus.Steady := Bus.steady_default
  have hup : newPanel.bringUp.2 = .ok () := (Panel.bringUp_of_steady hsteady).1
  refine ⟨hup, ?_⟩
  have hlast : ((booted (.fresh newPanel.bringUp.1 : Traced Panel Bitmap) .standard 0
      (.empty : Agenda 4) (.boot .initial) 0).follow (.boot .initial)
      [layersReport]).1.surface.trace.lastFlush = some (.ok ()) := by
    rw [layersReport]
    exact lastFlush_layers_of_steady hsteady .standard 0 .empty (.boot .initial) (.boot .initial)
      0 10 ⟨4⟩
  have hlive := shutDown_booted newPanel.bringUp.1 .standard 0 (.empty : Agenda 4)
    (.boot .initial) 0
  have hrun := pixel_eq_picture_of_follow hup .zero .standard 0 (.empty : Agenda 4)
    (.boot .initial) 0 [layersReport]
  have htold : ((booted newPanel.bringUp.1 .standard 0 (.empty : Agenda 4) (.boot .initial)
      0).follow (.boot .initial) [layersReport]).2 =
        (Status.boot .initial).apply (.layers ⟨4⟩) := by
    simp only [follow, told, layersReport, hlive]
    rfl
  dsimp only at hrun
  have hmemory := hrun.2 hlast
  rw [htold] at hmemory
  exact hmemory

end Controller

end StatusPanel
