import StatusPanel.Agenda.Basic
import StatusPanel.Power
import StatusPanel.Screen.Painter
import StatusPanel.Settings.Basic

/-!
# The display controller

The controller owns the surface, its power state and the painter. It answers keyboard events and
runs the chores; nothing is drawn while the panel is off, and nothing at all is done after a
shutdown. Refusals of the surface are passed over: the state goes on as if the call had been
accepted.

## Main definitions

* `Controller`: the controller of a surface
* `Controller.start`, `Controller.boot`: creation, and the first screen
* `Controller.handle`: the answer to an event
* `Controller.idleCheck`, `Controller.barRedraw`, `Controller.runChore`: the chores
* `Controller.activity`, `Controller.suspend`, `Controller.wake`, `Controller.shutdown`: the power
  steps

## Main results

* `Controller.handle_of_shutDown`, `Controller.runChore_of_shutDown`: nothing is done after a
  shutdown
-/

namespace StatusPanel

/-- The controller of a surface `S` with pictures of type `ι`. -/
structure Controller (S ι : Type) where
  surface : S
  power : Power
  painter : Painter ι
  settings : Settings
  /-- The token of the idle check, once it is registered. -/
  idleToken : Option Token := none
  /-- The token of the bar redraw, once it is registered. -/
  barToken : Option Token := none
  /-- Whether the controller was shut down. -/
  shutDown : Bool := false

namespace Controller

variable {S ι : Type} [Surface S ι] {capacity : Nat}

/-- Settings whose intervals are not zero: a chore re-armed without delay would run for ever. -/
def withIntervals (settings : Settings) : Settings :=
  { settings with
    timing.checkInterval := max settings.timing.checkInterval 1
    timing.barInterval := max settings.timing.barInterval 1 }

/-- A controller around a surface that is on. Nothing is drawn yet. -/
def start (surface : S) (settings : Settings) (now : UInt32) : Controller S ι :=
  let settings := withIntervals settings
  { surface
    power := .start now settings.timing.sleepTimeout settings.timing.checkInterval
    painter := ⟨.empty, settings.typing.scaleMax, none⟩
    settings }

/-- Switches the surface. Its answer is passed over. -/
def switch (c : Controller S ι) : Switch → Controller S ι
  | .stay => c
  | .powerOn => { c with surface := (Surface.power c.surface true).1 }
  | .powerOff => { c with surface := (Surface.power c.surface false).1 }

/-- Takes a step of the power state and switches the surface as it answers. -/
def stepPower (c : Controller S ι) (step : Power × Switch) : Controller S ι :=
  { c with power := step.1 }.switch step.2

/-- Notes activity of the user, which wakes the panel. -/
def activity (c : Controller S ι) (now : UInt32) : Controller S ι :=
  if c.shutDown then c else c.stepPower (c.power.activity now)

/-- Follows the host into suspend: the panel goes off. -/
def suspend (c : Controller S ι) : Controller S ι :=
  if c.shutDown then c else c.stepPower c.power.suspend

/-- Follows the host out of suspend: the panel goes on and still shows what it showed. This is no
activity, so the next idle check may switch it off again. -/
def wake (c : Controller S ι) : Controller S ι :=
  if c.shutDown then c else c.stepPower c.power.wake

/-- Switches the panel off for good, whatever its power state; `true` asks for dark key LEDs. -/
def shutdown (c : Controller S ι) : Controller S ι × Bool :=
  if c.shutDown then (c, false)
  else
    ({ c with
       shutDown := true
       power := c.power.suspend.1
       surface := (Surface.power c.surface false).1 }, true)

/-- Lets the painter act on the surface. -/
def paintWith (c : Controller S ι) (act : Painter ι → S → Painter ι × S) : Controller S ι :=
  let (painter, surface) := act c.painter c.surface
  { c with painter, surface }

/-- The idle check, and when the next one is. -/
def idleCheck (c : Controller S ι) (now : UInt32) : Controller S ι × Rearm :=
  if c.shutDown then (c, .cancel)
  else (c.stepPower (c.power.idleCheck now), .after c.power.checkInterval)

/-- The redraw of the bars from a status, and when the next one is. -/
def barRedraw (c : Controller S ι) (status : Status) : Controller S ι × Rearm :=
  if c.shutDown then (c, .cancel)
  else
    (if c.power.powered then c.paintWith (·.tick · status) else c,
      .after c.settings.timing.barInterval)

/-- Runs a chore. -/
def runChore (c : Controller S ι) (chore : Chore) (status : Status) (now : UInt32) :
    Controller S ι × Rearm :=
  match chore with
  | .idleCheck => c.idleCheck now
  | .barRedraw => c.barRedraw status

/-- Loads the pictures, draws the whole screen and registers the chores. This is activity. -/
def boot (c : Controller S ι) (loader : Asset → Option ι) (agenda : Agenda capacity)
    (status : Status) (now : UInt32) : Controller S ι × Agenda capacity :=
  let c := { c with painter := ⟨.load loader, c.settings.typing.scaleMax, none⟩ }
  let c := (c.stepPower (c.power.activity now)).paintWith (·.redrawAll · status)
  let (agenda, idleToken) := agenda.register .idleCheck c.settings.timing.checkInterval
  let (agenda, barToken) := agenda.register .barRedraw c.settings.timing.barInterval
  ({ c with idleToken, barToken }, agenda)

/-- Shows what an event reports; a key asks for the bars soon. The last answer asks for dark key
LEDs. -/
def respond (c : Controller S ι) (agenda : Agenda capacity) :
    Event → Controller S ι × Agenda capacity × Bool
  | .key _ =>
    match c.barToken with
    | some token => (c, agenda.wantSoon token, false)
    | none => (c, agenda, false)
  | .layers mask => (c.paintWith fun p s => (p, p.showLayers s mask), agenda, false)
  | .defaultLayers mask => (c.paintWith fun p s => (p, p.showDefaultLayer s mask), agenda, false)
  | .locks locks => (c.paintWith fun p s => (p, p.showLocks s locks), agenda, false)
  | .lighting lighting => (c.paintWith (·.showLighting · lighting), agenda, false)
  | .suspend => (c.suspend, agenda, false)
  | .wake => (c.wake, agenda, false)
  | .shutdown =>
    let (c, dark) := c.shutdown
    (c, agenda, dark)

/-- The answer to an event: activity wakes the panel first. The status reflects the event already;
the event's own payload is what is shown. -/
def handle (c : Controller S ι) (agenda : Agenda capacity) (event : Event) (_status : Status)
    (now : UInt32) : Controller S ι × Agenda capacity × Bool :=
  if c.shutDown then (c, agenda, false)
  else if event.isActivity then (c.activity now).respond agenda event
  else c.respond agenda event

/-! ## What switching leaves alone -/

@[simp] theorem power_switch (c : Controller S ι) (s : Switch) : (c.switch s).power = c.power := by
  cases s <;> rfl

@[simp] theorem painter_switch (c : Controller S ι) (s : Switch) :
    (c.switch s).painter = c.painter := by
  cases s <;> rfl

@[simp] theorem settings_switch (c : Controller S ι) (s : Switch) :
    (c.switch s).settings = c.settings := by
  cases s <;> rfl

@[simp] theorem shutDown_switch (c : Controller S ι) (s : Switch) :
    (c.switch s).shutDown = c.shutDown := by
  cases s <;> rfl

@[simp] theorem power_stepPower (c : Controller S ι) (step : Power × Switch) :
    (c.stepPower step).power = step.1 := by
  simp [stepPower]

/-! ## After a shutdown -/

theorem handle_of_shutDown {c : Controller S ι} (h : c.shutDown = true) (agenda : Agenda capacity)
    (event : Event) (status : Status) (now : UInt32) :
    c.handle agenda event status now = (c, agenda, false) := by
  simp [handle, h]

theorem runChore_of_shutDown {c : Controller S ι} (h : c.shutDown = true) (chore : Chore)
    (status : Status) (now : UInt32) : c.runChore chore status now = (c, .cancel) := by
  cases chore <;> simp [runChore, idleCheck, barRedraw, h]

@[simp] theorem shutDown_shutdown (c : Controller S ι) : c.shutdown.1.shutDown = true := by
  unfold shutdown
  split <;> simp_all

end Controller

end StatusPanel
