import StatusPanel.Controller
import StatusPanel.Proofs.Surface.Trace

/-!
# Runs of the controller

A controller is booted and then takes inputs, one after another. Whatever the input, what it does is
a *plan*, made without asking the surface: a power step, then a redraw of parts, and perhaps the
shutdown. An event that is the work of the user wakes the panel and redraws the parts that
the event changes, a bar redraw redraws the parts that are out of date, and every other input is a
power step. What holds of every plan that is carried out holds of every input, so the proofs about
runs look at power steps and redraws, and at single inputs only where their plans matter.

## Main definitions

* `Event.parts`: the parts of the screen that an event changes
* `Controller.Input`, `Controller.take`: an input, and the controller after it
* `Controller.Request`, `Controller.serve`: an input or a boot, and the controller after it
* `Controller.showParts`: a redraw of parts by the painter
* `Controller.Plan`, `Controller.plan`, `Controller.execute`: what a controller does about an input

## Main results

* `Controller.take_of_live`: an input is taken as planned
* `Controller.fst_boot`: the boot as a power step and a redraw
* `Controller.driven_take`, `Controller.driven_boot`: the surface is driven by calls
* `Controller.view_take`: controllers of surfaces that answer alike act alike
-/

namespace StatusPanel

/-- The parts of the screen that an event changes. -/
def Event.parts : Event → List Part
  | .layers _ => [.layers]
  | .defaultLayers _ => [.defaultLayer]
  | .locks _ => [.locks]
  | .lighting _ => [.lightingBars, .effectIndex]
  | .key _ | .suspend | .wake | .shutdown => []

/-- An event is the work of the user or one of the host's. -/
theorem Event.isActivity_or (event : Event) :
    event.isActivity = true ∨ event = .suspend ∨ event = .wake ∨ event = .shutdown := by
  cases event <;> simp [isActivity]

namespace Controller

/-- What a controller is asked after its boot. -/
inductive Input (capacity : Nat)
  /-- To handle an event, with an agenda and a status of the caller. -/
  | event (agenda : Agenda capacity) (event : Event) (status : Status) (now : UInt32)
  /-- To note activity of the user. -/
  | activity (now : UInt32)
  /-- To check whether the user is idle. -/
  | idleCheck (now : UInt32)
  /-- To redraw the bars. -/
  | barRedraw (status : Status)
  /-- To follow the host into suspend. -/
  | suspend
  /-- To follow the host out of suspend. -/
  | wake
  /-- To switch the panel off for good. -/
  | shutdown

/-- An input, or a boot. -/
inductive Request (ι : Type) (capacity : Nat)
  | boot (loader : Asset → Option ι) (agenda : Agenda capacity) (status : Status) (now : UInt32)
  | input (input : Input capacity)

variable {S ι : Type} {capacity : Nat}

/-- The controller with the pictures of a loader, none of which is on the screen yet. -/
def load (c : Controller S ι) (loader : Asset → Option ι) : Controller S ι :=
  { c with painter := ⟨.load loader, c.settings.typing.scaleMax, none⟩ }

/-- The tokens of the idle check and the bar redraw when they are registered. -/
def choreTokens (settings : Settings) (agenda : Agenda capacity) : Option Token × Option Token :=
  let (agenda, idleToken) := agenda.register .idleCheck settings.timing.checkInterval
  (idleToken, (agenda.register .barRedraw settings.timing.barInterval).2)

/-- The controller with other tokens. -/
def withTokens (c : Controller S ι) (idleToken barToken : Option Token) : Controller S ι :=
  { c with idleToken, barToken }

section

variable (c : Controller S ι) (idleToken barToken : Option Token)

@[simp] theorem surface_withTokens : (c.withTokens idleToken barToken).surface = c.surface := rfl

@[simp] theorem power_withTokens : (c.withTokens idleToken barToken).power = c.power := rfl

@[simp] theorem shutDown_withTokens : (c.withTokens idleToken barToken).shutDown = c.shutDown := rfl

end

variable [Surface S ι]

/-- The controller after an input. -/
def take (c : Controller S ι) : Input capacity → Controller S ι
  | .event agenda event status now => (c.handle agenda event status now).1
  | .activity now => c.activity now
  | .idleCheck now => (c.idleCheck now).1
  | .barRedraw status => (c.barRedraw status).1
  | .suspend => c.suspend
  | .wake => c.wake
  | .shutdown => c.shutdown.1

/-- The controller after a request. -/
def serve (c : Controller S ι) : Request ι capacity → Controller S ι
  | .boot loader agenda status now => (c.boot loader agenda status now).1
  | .input input => c.take input

/-- The controller after requests. -/
def run (c : Controller S ι) (requests : List (Request ι capacity)) : Controller S ι :=
  requests.foldl serve c

/-- The redraw of parts from a status. -/
def showParts (c : Controller S ι) (status : Status) (parts : List Part) : Controller S ι :=
  c.paintWith (·.redrawParts · status parts)

/-! ## The answers as power steps and redraws -/

/-- What a controller does about an input: a power step, then a redraw of parts from a status. -/
structure Plan where
  step : Power × Switch
  status : Status
  parts : List Part
  /-- Whether the controller shuts down with it. -/
  ends : Bool

/-- A power step without a redraw. -/
def Plan.power (step : Power × Switch) (status : Status) : Plan := ⟨step, status, [], false⟩

/-- The plan of the shutdown, which switches the panel off whatever its power state. -/
def Plan.shutdown (power : Power) (status : Status) : Plan :=
  ⟨(power.suspend.1, .powerOff), status, [], true⟩

/-- What a controller does about an event, if it shows a status. -/
def planEvent (c : Controller S ι) (shown : Status) (now : UInt32) : Event → Plan
  | .suspend => .power c.power.suspend shown
  | .wake => .power c.power.wake shown
  | .shutdown => .shutdown c.power shown
  | event => ⟨c.power.activity now, shown.apply event, event.parts, false⟩

/-- What a controller does about an input, if it shows a status. -/
def plan (c : Controller S ι) (shown : Status) : Input capacity → Plan
  | .event _ event _ now => c.planEvent shown now event
  | .activity now => .power (c.power.activity now) shown
  | .idleCheck now => .power (c.power.idleCheck now) shown
  | .barRedraw status =>
    ⟨(c.power, .stay), status, if c.power.powered then c.painter.tickParts status else [], false⟩
  | .suspend => .power c.power.suspend shown
  | .wake => .power c.power.wake shown
  | .shutdown => .shutdown c.power shown

/-- The controller after it carried out a plan. -/
def execute (c : Controller S ι) (plan : Plan) : Controller S ι :=
  ({ c with shutDown := plan.ends }.stepPower plan.step).showParts plan.status plan.parts

theorem take_of_shutDown {c : Controller S ι} (h : c.shutDown = true) (input : Input capacity) :
    c.take input = c := by
  cases input <;>
    simp [take, handle, activity, idleCheck, barRedraw, suspend, wake, shutdown, h]

theorem activity_of_live {c : Controller S ι} (h : c.shutDown = false) (now : UInt32) :
    c.activity now = c.stepPower (c.power.activity now) := by
  simp [activity, h]

theorem suspend_of_live {c : Controller S ι} (h : c.shutDown = false) :
    c.suspend = c.stepPower c.power.suspend := by
  simp [suspend, h]

theorem wake_of_live {c : Controller S ι} (h : c.shutDown = false) :
    c.wake = c.stepPower c.power.wake := by
  simp [wake, h]

/-- The event's own payload is shown, whatever else the status says. -/
theorem fst_respond_of_isActivity (c : Controller S ι) (agenda : Agenda capacity) {event : Event}
    (he : event.isActivity = true) (status : Status) :
    (c.respond agenda event).1 = c.showParts (status.apply event) event.parts := by
  cases event with
  | key pressed =>
    rw [respond]
    cases c.barToken <;> rfl
  | suspend => cases he
  | wake => cases he
  | shutdown => cases he
  | _ => rfl

/-- The work of the user wakes the panel and redraws the parts that the event changes. -/
theorem fst_handle_of_isActivity {c : Controller S ι} (h : c.shutDown = false)
    (agenda : Agenda capacity) {event : Event} (he : event.isActivity = true)
    (status known : Status) (now : UInt32) :
    (c.handle agenda event known now).1 =
      (c.stepPower (c.power.activity now)).showParts (status.apply event) event.parts := by
  rw [← activity_of_live h, ← fst_respond_of_isActivity _ agenda he]
  simp [handle, h, he]

theorem fst_handle_suspend (c : Controller S ι) (agenda : Agenda capacity) (known : Status)
    (now : UInt32) : (c.handle agenda .suspend known now).1 = c.suspend := by
  unfold handle suspend
  split <;> simp_all [Event.isActivity, respond, suspend]

theorem fst_handle_wake (c : Controller S ι) (agenda : Agenda capacity) (known : Status)
    (now : UInt32) : (c.handle agenda .wake known now).1 = c.wake := by
  unfold handle wake
  split <;> simp_all [Event.isActivity, respond, wake]

theorem fst_handle_shutdown (c : Controller S ι) (agenda : Agenda capacity) (known : Status)
    (now : UInt32) : (c.handle agenda .shutdown known now).1 = c.shutdown.1 := by
  unfold handle shutdown
  split <;> simp_all [Event.isActivity, respond, shutdown]

theorem execute_of_live {c : Controller S ι} (h : c.shutDown = false) {plan : Plan}
    (hp : plan.ends = false) :
    c.execute plan = (c.stepPower plan.step).showParts plan.status plan.parts := by
  rw [execute, hp, ← h]

/-- A controller that is not shut down takes an input as planned. -/
theorem take_of_live {c : Controller S ι} (h : c.shutDown = false) (shown : Status)
    (input : Input capacity) : c.take input = c.execute (c.plan shown input) := by
  have hshutdown : c.shutdown.1 = c.execute (.shutdown c.power shown) := by
    rw [shutdown, h]
    rfl
  have hpower (step : Power × Switch) : c.stepPower step = c.execute (.power step shown) := by
    rw [execute_of_live h rfl]
    rfl
  cases input with
  | event agenda event status now =>
    rw [take, plan]
    rcases event.isActivity_or with he | rfl | rfl | rfl
    · have hplan : c.planEvent shown now event =
          ⟨c.power.activity now, shown.apply event, event.parts, false⟩ := by
        cases event <;> first | rfl | cases he
      rw [fst_handle_of_isActivity h agenda he shown, hplan, execute_of_live h rfl]
    · rw [fst_handle_suspend, suspend_of_live h]
      exact hpower c.power.suspend
    · rw [fst_handle_wake, wake_of_live h]
      exact hpower c.power.wake
    · rw [fst_handle_shutdown]
      exact hshutdown
  | activity now =>
    rw [take, activity_of_live h]
    exact hpower _
  | idleCheck now =>
    have hcheck : (c.idleCheck now).1 = c.stepPower (c.power.idleCheck now) := by
      simp [idleCheck, h]
    rw [take, hcheck]
    exact hpower _
  | barRedraw status =>
    rw [take, plan, execute_of_live h rfl]
    unfold barRedraw
    -- the tick of a panel that is on is a redraw, and no step is a step to the same power state
    simp only [h, Bool.false_eq_true, if_false, Painter.tick_eq]
    split <;> rfl
  | suspend =>
    rw [take, suspend_of_live h]
    exact hpower _
  | wake =>
    rw [take, wake_of_live h]
    exact hpower _
  | shutdown => exact hshutdown

/-- The first screen redraws every part with the pictures that loaded. -/
theorem fst_boot (c : Controller S ι) (loader : Asset → Option ι) (agenda : Agenda capacity)
    (status : Status) (now : UInt32) :
    (c.boot loader agenda status now).1 =
      (((c.load loader).stepPower (c.power.activity now)).showParts status Part.all).withTokens
        (choreTokens c.settings agenda).1 (choreTokens c.settings agenda).2 := by
  have hsettings : ((c.load loader).stepPower (c.power.activity now)).settings = c.settings := by
    simp [load, stepPower]
  rw [← hsettings]
  unfold boot choreTokens showParts paintWith withTokens
  simp only [load, Painter.redrawAll_eq]

@[simp] theorem power_showParts (c : Controller S ι) (status : Status) (parts : List Part) :
    (c.showParts status parts).power = c.power := rfl

@[simp] theorem shutDown_showParts (c : Controller S ι) (status : Status) (parts : List Part) :
    (c.showParts status parts).shutDown = c.shutDown := rfl

@[simp] theorem shutDown_stepPower (c : Controller S ι) (step : Power × Switch) :
    (c.stepPower step).shutDown = c.shutDown := by
  simp [stepPower]

@[simp] theorem painter_stepPower (c : Controller S ι) (step : Power × Switch) :
    (c.stepPower step).painter = c.painter := by
  simp [stepPower]

/-! ## The surface is driven by calls -/

theorem driven_switch (c : Controller S ι) (s : Switch) :
    Driven c.surface (c.switch s).surface := by
  cases s with
  | stay => exact .refl
  | powerOn => exact Driven.refl.power true
  | powerOff => exact Driven.refl.power false

theorem driven_stepPower (c : Controller S ι) (step : Power × Switch) :
    Driven c.surface (c.stepPower step).surface :=
  driven_switch { c with power := step.1 } step.2

theorem painted_showParts (c : Controller S ι) (status : Status) (parts : List Part) :
    Painted c.surface (c.showParts status parts).surface :=
  c.painter.painted_redrawParts c.surface status parts

theorem driven_execute (c : Controller S ι) (plan : Plan) :
    Driven c.surface (c.execute plan).surface :=
  (driven_stepPower { c with shutDown := plan.ends } plan.step).trans
    (painted_showParts _ _ _).driven

theorem driven_take (c : Controller S ι) (input : Input capacity) :
    Driven c.surface (c.take input).surface := by
  cases h : c.shutDown with
  | true =>
    rw [take_of_shutDown h]
    exact .refl
  | false =>
    rw [take_of_live h (.boot .initial)]
    exact c.driven_execute _

theorem driven_boot (c : Controller S ι) (loader : Asset → Option ι) (agenda : Agenda capacity)
    (status : Status) (now : UInt32) :
    Driven c.surface (c.boot loader agenda status now).1.surface := by
  have hstep := (c.load loader).driven_stepPower (c.power.activity now)
  have hshow := painted_showParts ((c.load loader).stepPower (c.power.activity now)) status Part.all
  rw [fst_boot, surface_withTokens]
  exact hstep.trans hshow.driven

/-! ## Surfaces that answer alike -/

/-- The controller of a view of the surface. -/
def view {T : Type} (c : Controller S ι) (f : S → T) : Controller T ι where
  surface := f c.surface
  power := c.power
  painter := c.painter
  settings := c.settings
  idleToken := c.idleToken
  barToken := c.barToken
  shutDown := c.shutDown

omit [Surface S ι] in
theorem view_withTokens {T : Type} (c : Controller S ι) (f : S → T)
    (idleToken barToken : Option Token) :
    (c.withTokens idleToken barToken).view f = (c.view f).withTokens idleToken barToken := rfl

section

variable {T : Type} [Surface T ι] {f : S → T} (hf : Surface.Alike f) (c : Controller S ι)

include hf

theorem view_stepPower (step : Power × Switch) :
    (c.view f).stepPower step = (c.stepPower step).view f := by
  obtain ⟨power, s⟩ := step
  cases s with
  | stay => rfl
  | powerOn => simp [stepPower, switch, view, hf.power]
  | powerOff => simp [stepPower, switch, view, hf.power]

theorem view_showParts (status : Status) (parts : List Part) :
    (c.view f).showParts status parts = (c.showParts status parts).view f := by
  simp [showParts, paintWith, view, hf.redrawParts]

theorem view_execute (plan : Plan) : (c.view f).execute plan = (c.execute plan).view f := by
  unfold execute
  rw [← view_showParts hf, ← view_stepPower hf]
  rfl

theorem view_take (input : Input capacity) : (c.view f).take input = (c.take input).view f := by
  cases h : c.shutDown with
  | true =>
    -- both do nothing any more
    have hview : (c.view f).shutDown = true := h
    rw [take_of_shutDown h, take_of_shutDown hview]
  | false =>
    have hview : (c.view f).shutDown = false := h
    -- a plan is made without asking the surface
    have hplan : (c.view f).plan (.boot .initial) input = c.plan (.boot .initial) input := by
      cases input <;> rfl
    rw [take_of_live h (.boot .initial), take_of_live hview (.boot .initial), hplan]
    exact view_execute hf c _

theorem view_boot (loader : Asset → Option ι) (agenda : Agenda capacity) (status : Status)
    (now : UInt32) :
    ((c.view f).boot loader agenda status now).1 =
      (c.boot loader agenda status now).1.view f := by
  have hstep : ((c.view f).load loader).stepPower ((c.view f).power.activity now) =
      ((c.load loader).stepPower (c.power.activity now)).view f :=
    view_stepPower hf (c.load loader) _
  rw [fst_boot, fst_boot, hstep, view_showParts hf, view_withTokens]
  rfl

end

end Controller

end StatusPanel
