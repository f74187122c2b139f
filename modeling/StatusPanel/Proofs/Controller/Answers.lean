import StatusPanel.Proofs.Controller.Run

/-!
# What a controller answers

Beside what it does to the surface, a controller makes chores of an agenda urgent, asks for dark key
LEDs, and says when a chore runs again. These answers depend on whether it was shut down and on its
*terms*: its settings, its tokens and the times of its power state. Nothing that it is asked after
its boot changes the terms, so it re-arms a chore with the same delay every time until it is shut
down.

## Main definitions

* `Controller.Terms`, `Controller.terms`: what the answers depend on
* `Controller.rearm`: when a chore runs again

## Main results

* `Controller.snd_handle`, `Controller.snd_runChore`, `Controller.snd_boot`: the answers
* `Controller.terms_take`: nothing changes the terms
* `Controller.shutDown_handle`, `Controller.shutDown_runChore`: what shuts a controller down
* `Controller.power_handle`, `Controller.power_runChore`: the power state
-/

namespace StatusPanel

namespace Power

/-- A power state with the times of another one. -/
structure SameTimes (p q : Power) : Prop where
  timeout : p.timeout = q.timeout
  checkInterval : p.checkInterval = q.checkInterval

variable (p : Power)

theorem sameTimes_wake : p.wake.1.SameTimes p := by
  unfold wake
  split <;> exact ⟨rfl, rfl⟩

theorem sameTimes_suspend : p.suspend.1.SameTimes p := by
  unfold suspend
  split <;> exact ⟨rfl, rfl⟩

theorem sameTimes_activity (now : UInt32) : (p.activity now).1.SameTimes p :=
  have h := sameTimes_wake { p with lastActivity := now }
  ⟨h.timeout, h.checkInterval⟩

theorem sameTimes_idleCheck (now : UInt32) : (p.idleCheck now).1.SameTimes p := by
  unfold idleCheck
  split
  · exact p.sameTimes_suspend
  · exact ⟨rfl, rfl⟩

end Power

/-- What a chore asks of the controller. -/
def Chore.input {capacity : Nat} (chore : Chore) (status : Status) (now : UInt32) :
    Controller.Input capacity :=
  match chore with
  | .idleCheck => .idleCheck now
  | .barRedraw => .barRedraw status

namespace Controller

/-- What the answers of a controller depend on, but for whether it was shut down. -/
structure Terms where
  settings : Settings
  idleToken : Option Token
  barToken : Option Token
  timeout : UInt32
  checkInterval : UInt32

/-- The delay between the runs of a chore. -/
def Terms.interval (terms : Terms) : Chore → UInt32
  | .idleCheck => terms.checkInterval
  | .barRedraw => terms.settings.timing.barInterval

variable {S ι : Type} {capacity : Nat}

/-- The terms of a controller. -/
def terms (c : Controller S ι) : Terms :=
  ⟨c.settings, c.idleToken, c.barToken, c.power.timeout, c.power.checkInterval⟩

/-- When a chore runs again. -/
def rearm (c : Controller S ι) (chore : Chore) : Rearm :=
  if c.shutDown then .cancel else .after (c.terms.interval chore)

variable [Surface S ι] (c : Controller S ι)

theorem take_input (chore : Chore) (status : Status) (now : UInt32) :
    c.take (chore.input status now : Input capacity) = (c.runChore chore status now).1 := by
  cases chore <;> rfl

/-! ## The answers -/

/-- What an event makes of the agenda, and whether it asks for dark key LEDs. -/
theorem snd_handle (agenda : Agenda capacity) (event : Event) (status : Status) (now : UInt32) :
    (c.handle agenda event status now).2 =
      if c.shutDown then (agenda, false)
      else
        match event with
        | .key _ => (c.barToken.elim agenda agenda.wantSoon, false)
        | .shutdown => (agenda, true)
        | _ => (agenda, false) := by
  have hbar (step : Power × Switch) : (c.stepPower step).barToken = c.barToken := by
    obtain ⟨power, s⟩ := step
    cases s <;> rfl
  cases hs : c.shutDown with
  | true => simp [handle, hs]
  | false =>
    cases event with
    | key pressed =>
      cases hb : c.barToken <;> simp [handle, hs, Event.isActivity, activity, respond, hb, hbar]
    | _ => simp [handle, hs, Event.isActivity, activity, respond, shutdown]

/-- When a chore runs again. -/
theorem snd_runChore (chore : Chore) (status : Status) (now : UInt32) :
    (c.runChore chore status now).2 = c.rearm chore := by
  cases hs : c.shutDown <;> cases chore <;>
    simp [runChore, idleCheck, barRedraw, rearm, terms, Terms.interval, hs]

/-- The chores that a boot registers. -/
theorem snd_boot (loader : Asset → Option ι) (agenda : Agenda capacity) (status : Status)
    (now : UInt32) :
    (c.boot loader agenda status now).2 =
      ((agenda.register .idleCheck c.settings.timing.checkInterval).1.register .barRedraw
        c.settings.timing.barInterval).1 := by
  unfold boot
  simp [stepPower, paintWith]

/-! ## The terms -/

variable {c}

theorem terms_stepPower {step : Power × Switch} (h : step.1.SameTimes c.power) :
    (c.stepPower step).terms = c.terms := by
  obtain ⟨power, s⟩ := step
  have htimeout : power.timeout = c.power.timeout := h.timeout
  have hinterval : power.checkInterval = c.power.checkInterval := h.checkInterval
  cases s <;> simp only [terms, stepPower, switch, htimeout, hinterval]

theorem terms_execute {plan : Plan} (h : plan.step.1.SameTimes c.power) :
    (c.execute plan).terms = c.terms :=
  terms_stepPower (c := { c with shutDown := plan.ends }) h

omit [Surface S ι] in
/-- No plan changes the times of the power state. -/
theorem sameTimes_plan (c : Controller S ι) (shown : Status) (input : Input capacity) :
    (c.plan shown input).step.1.SameTimes c.power := by
  cases input with
  | event agenda event status now =>
    cases event with
    | suspend => exact c.power.sameTimes_suspend
    | wake => exact c.power.sameTimes_wake
    | shutdown => exact c.power.sameTimes_suspend
    | _ => exact c.power.sameTimes_activity now
  | activity now => exact c.power.sameTimes_activity now
  | idleCheck now => exact c.power.sameTimes_idleCheck now
  | barRedraw status => exact ⟨rfl, rfl⟩
  | suspend => exact c.power.sameTimes_suspend
  | wake => exact c.power.sameTimes_wake
  | shutdown => exact c.power.sameTimes_suspend

/-- No input changes the terms. -/
theorem terms_take (c : Controller S ι) (input : Input capacity) :
    (c.take input).terms = c.terms := by
  cases h : c.shutDown with
  | true => rw [take_of_shutDown h]
  | false =>
    rw [take_of_live h (.boot .initial)]
    exact terms_execute (sameTimes_plan c _ input)

theorem terms_handle (c : Controller S ι) (agenda : Agenda capacity) (event : Event)
    (status : Status) (now : UInt32) : (c.handle agenda event status now).1.terms = c.terms :=
  terms_take c (.event agenda event status now)

theorem terms_runChore (c : Controller S ι) (chore : Chore) (status : Status) (now : UInt32) :
    (c.runChore chore status now).1.terms = c.terms := by
  rw [← take_input]
  exact terms_take c (chore.input status now : Input 0)

/-- A boot notes the tokens of the chores. -/
theorem terms_boot (c : Controller S ι) (loader : Asset → Option ι) (agenda : Agenda capacity)
    (status : Status) (now : UInt32) :
    (c.boot loader agenda status now).1.terms =
      { c.terms with
        idleToken := (choreTokens c.settings agenda).1
        barToken := (choreTokens c.settings agenda).2 } := by
  have hstep := terms_stepPower (c := c.load loader) (c.power.sameTimes_activity now)
  have hshow : (((c.load loader).stepPower (c.power.activity now)).showParts status
      Part.all).terms = c.terms := hstep
  rw [fst_boot]
  unfold withTokens terms at *
  grind

/-! ## Shutting down -/

@[simp] theorem shutDown_execute (c : Controller S ι) (plan : Plan) :
    (c.execute plan).shutDown = plan.ends := by
  rw [execute, shutDown_showParts, shutDown_stepPower]

/-- A controller is shut down by one event only, and stays so. -/
theorem shutDown_handle (c : Controller S ι) (agenda : Agenda capacity) (event : Event)
    (status : Status) (now : UInt32) :
    (c.handle agenda event status now).1.shutDown = (c.shutDown || event == .shutdown) := by
  cases h : c.shutDown with
  | true => rw [handle_of_shutDown h, h, Bool.true_or]
  | false =>
    have htake := take_of_live h (.boot .initial) (.event agenda event status now)
    rw [take] at htake
    rw [htake, shutDown_execute]
    cases event <;> rfl

@[simp] theorem shutDown_runChore (c : Controller S ι) (chore : Chore) (status : Status)
    (now : UInt32) : (c.runChore chore status now).1.shutDown = c.shutDown := by
  cases h : c.shutDown with
  | true => rw [runChore_of_shutDown h, h]
  | false =>
    rw [← take_input, take_of_live h (.boot .initial) (chore.input status now : Input 0),
      shutDown_execute]
    cases chore <;> rfl

/-- No chore changes when the chores run again. -/
theorem rearm_runChore (c : Controller S ι) (chore : Chore) (status : Status) (now : UInt32) :
    (c.runChore chore status now).1.rearm = c.rearm := by
  funext other
  rw [rearm, rearm, shutDown_runChore, terms_runChore]

/-! ## The power state -/

@[simp] theorem power_execute (c : Controller S ι) (plan : Plan) :
    (c.execute plan).power = plan.step.1 := by
  rw [execute, power_showParts, power_stepPower]

/-- The power state after an event, unless the controller was shut down. -/
theorem power_handle (h : c.shutDown = false) (agenda : Agenda capacity) (event : Event)
    (status : Status) (now : UInt32) :
    (c.handle agenda event status now).1.power =
      match event with
      | .suspend | .shutdown => c.power.suspend.1
      | .wake => c.power.wake.1
      | _ => (c.power.activity now).1 := by
  have htake := take_of_live h (.boot .initial) (.event agenda event status now)
  rw [take] at htake
  rw [htake, power_execute]
  cases event <;> rfl

theorem power_handle_of_isActivity (h : c.shutDown = false) (agenda : Agenda capacity)
    {event : Event} (hactivity : event.isActivity = true) (status : Status) (now : UInt32) :
    (c.handle agenda event status now).1.power = (c.power.activity now).1 := by
  rw [power_handle h]
  cases event <;> first | rfl | cases hactivity

/-- The power state after a chore, unless the controller was shut down. -/
theorem power_runChore (h : c.shutDown = false) (chore : Chore) (status : Status)
    (now : UInt32) :
    (c.runChore chore status now).1.power =
      match chore with
      | .idleCheck => (c.power.idleCheck now).1
      | .barRedraw => c.power := by
  rw [← take_input, take_of_live h (.boot .initial) (chore.input status now : Input 0),
    power_execute]
  cases chore <;> rfl

/-- A boot is activity. -/
theorem power_boot (c : Controller S ι) (loader : Asset → Option ι) (agenda : Agenda capacity)
    (status : Status) (now : UInt32) :
    (c.boot loader agenda status now).1.power = (c.power.activity now).1 := by
  rw [fst_boot, power_withTokens, power_showParts, power_stepPower]

theorem shutDown_boot (c : Controller S ι) (loader : Asset → Option ι)
    (agenda : Agenda capacity) (status : Status) (now : UInt32) :
    (c.boot loader agenda status now).1.shutDown = c.shutDown := by
  rw [fst_boot, shutDown_withTokens, shutDown_showParts, shutDown_stepPower]
  rfl

end Controller

end StatusPanel
