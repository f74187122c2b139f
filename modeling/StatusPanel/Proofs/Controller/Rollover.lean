import StatusPanel.Proofs.Agenda.Shift
import StatusPanel.Proofs.Controller.Console

/-!
# Rollover of the clock

A controller keeps the time of the last activity, and its agenda the times of its chores. All of
them are read as times between two readings of the clock. So a controller that is run at other
times, each of them moved by the same distance around the clock, does the same: where the clock
wraps cannot be told.

## Main definitions

* `Power.shift`, `Controller.shift`, `Console.shift`: the same at other times
* `Console.Step`, `Console.step`, `Console.answer`: what happens to a console, and its answer
* `Console.Sight`, `Console.watch`: what can be seen of a run

## Main results

* `Controller.handle_shift`, `Controller.runChore_shift`, `Controller.boot_shift`: a controller that
  is shifted acts alike
* `Console.step_shift`: so does a console at every step
* `Console.watch_shift`: runs that are shifted look the same
-/

namespace StatusPanel

/-! ## The power state -/

namespace Power

variable (p : Power) (distance now : UInt32)

/-- The same power state, moved by a distance. -/
def shift (distance : UInt32) (p : Power) : Power :=
  { p with lastActivity := p.lastActivity + distance }

/-- The same power step, moved by a distance. -/
def shiftStep (distance : UInt32) (step : Power × Switch) : Power × Switch :=
  (step.1.shift distance, step.2)

theorem idleFor_shift : (p.shift distance).idleFor (now + distance) = p.idleFor now :=
  add_sub_add_right now p.lastActivity distance

theorem wake_shift : (p.shift distance).wake = shiftStep distance p.wake := by
  unfold wake
  rw [apply_ite (shiftStep distance)]
  rfl

theorem suspend_shift : (p.shift distance).suspend = shiftStep distance p.suspend := by
  unfold suspend
  rw [apply_ite (shiftStep distance)]
  rfl

theorem activity_shift :
    (p.shift distance).activity (now + distance) = shiftStep distance (p.activity now) :=
  wake_shift { p with lastActivity := now } distance

theorem idleCheck_shift :
    (p.shift distance).idleCheck (now + distance) = shiftStep distance (p.idleCheck now) := by
  unfold idleCheck
  rw [idleFor_shift, suspend_shift, apply_ite (shiftStep distance)]
  rfl

end Power

/-! ## The controller -/

namespace Controller

variable {S ι : Type} {capacity : Nat}

/-- The same controller, moved by a distance. -/
def shift (distance : UInt32) (c : Controller S ι) : Controller S ι :=
  { c with power := c.power.shift distance }

/-- The same input, moved by a distance. -/
def Input.shift (distance : UInt32) : Input capacity → Input capacity
  | .event agenda reported status now =>
    .event (agenda.shift distance) reported status (now + distance)
  | .activity now => .activity (now + distance)
  | .idleCheck now => .idleCheck (now + distance)
  | .barRedraw status => .barRedraw status
  | .suspend => .suspend
  | .wake => .wake
  | .shutdown => .shutdown

/-- The same plan, moved by a distance. -/
def Plan.shift (distance : UInt32) (plan : Plan) : Plan :=
  { plan with step := Power.shiftStep distance plan.step }

@[simp] theorem terms_shift (c : Controller S ι) (distance : UInt32) :
    (c.shift distance).terms = c.terms := rfl

variable [Surface S ι] (c : Controller S ι) (distance : UInt32)

omit [Surface S ι] in
theorem plan_shift (shown : Status) (input : Input capacity) :
    (c.shift distance).plan shown (input.shift distance) =
      (c.plan shown input).shift distance := by
  have hactivity (now : UInt32) := c.power.activity_shift distance now
  have hsuspend := c.power.suspend_shift distance
  have hwake := c.power.wake_shift distance
  let shutdown (step : Power × Switch) : Plan := ⟨(step.1, .powerOff), shown, [], true⟩
  cases input with
  | event agenda event status now =>
    cases event with
    | suspend => exact congrArg (Plan.power · shown) hsuspend
    | wake => exact congrArg (Plan.power · shown) hwake
    | shutdown => exact congrArg shutdown hsuspend
    | _ => exact congrArg (Plan.mk · _ _ false) (hactivity now)
  | activity now => exact congrArg (Plan.power · shown) (hactivity now)
  | idleCheck now => exact congrArg (Plan.power · shown) (c.power.idleCheck_shift distance now)
  | barRedraw status => rfl
  | suspend => exact congrArg (Plan.power · shown) hsuspend
  | wake => exact congrArg (Plan.power · shown) hwake
  | shutdown => exact congrArg shutdown hsuspend

theorem stepPower_shift (step : Power × Switch) :
    (c.shift distance).stepPower (Power.shiftStep distance step) =
      (c.stepPower step).shift distance := by
  obtain ⟨power, s⟩ := step
  cases s <;> rfl

theorem showParts_shift (status : Status) (parts : List Part) :
    (c.shift distance).showParts status parts = (c.showParts status parts).shift distance := rfl

theorem execute_shift (plan : Plan) :
    (c.shift distance).execute (plan.shift distance) = (c.execute plan).shift distance := by
  have hstep := stepPower_shift { c with shutDown := plan.ends } distance plan.step
  unfold execute
  rw [← showParts_shift, ← hstep]
  rfl

theorem take_shift (input : Input capacity) :
    (c.shift distance).take (input.shift distance) = (c.take input).shift distance := by
  cases h : c.shutDown with
  | true =>
    have hshift : (c.shift distance).shutDown = true := h
    rw [take_of_shutDown h, take_of_shutDown hshift]
  | false =>
    have hshift : (c.shift distance).shutDown = false := h
    rw [take_of_live h (.boot .initial), take_of_live hshift (.boot .initial), plan_shift,
      execute_shift]

/-- Events are handled alike. -/
theorem handle_shift (agenda : Agenda capacity) (event : Event) (status : Status) (now : UInt32) :
    (c.shift distance).handle (agenda.shift distance) event status (now + distance) =
      ((c.handle agenda event status now).1.shift distance,
        (c.handle agenda event status now).2.1.shift distance,
        (c.handle agenda event status now).2.2) := by
  refine Prod.ext (c.take_shift distance (.event agenda event status now)) ?_
  have hshut : (c.shift distance).shutDown = c.shutDown := rfl
  have hbar : (c.shift distance).barToken = c.barToken := rfl
  rw [snd_handle, snd_handle, hshut, hbar]
  cases c.shutDown with
  | true => rfl
  | false =>
    cases event with
    | key pressed =>
      cases c.barToken with
      | none => rfl
      | some token => exact congrArg (·, false) (agenda.wantSoon_shift distance token)
    | _ => rfl

/-- Chores run alike, and run again after the same delay. -/
theorem runChore_shift (chore : Chore) (status : Status) (now : UInt32) :
    (c.shift distance).runChore chore status (now + distance) =
      ((c.runChore chore status now).1.shift distance, (c.runChore chore status now).2) := by
  have hrearm : (c.shift distance).rearm chore = c.rearm chore := rfl
  have htake := c.take_shift distance (chore.input status now : Input 0)
  have hinput : (chore.input status now : Input 0).shift distance =
      chore.input status (now + distance) := by
    cases chore <;> rfl
  rw [hinput, take_input, take_input] at htake
  refine Prod.ext htake ?_
  rw [snd_runChore, snd_runChore, hrearm]

theorem boot_shift (loader : Asset → Option ι) (agenda : Agenda capacity) (status : Status)
    (now : UInt32) :
    (c.shift distance).boot loader (agenda.shift distance) status (now + distance) =
      ((c.boot loader agenda status now).1.shift distance,
        (c.boot loader agenda status now).2.shift distance) := by
  have htokens : choreTokens (c.shift distance).settings (agenda.shift distance) =
      choreTokens c.settings agenda := by
    unfold choreTokens
    simp only [shift, Agenda.register_shift]
  have hactivity : (c.shift distance).power.activity (now + distance) =
      Power.shiftStep distance (c.power.activity now) := c.power.activity_shift distance now
  have hload : (c.shift distance).load loader = (c.load loader).shift distance := rfl
  refine Prod.ext ?_ ?_
  · rw [fst_boot, fst_boot, htokens, hactivity, hload, stepPower_shift, showParts_shift]
    generalize ((c.load loader).stepPower (c.power.activity now)).showParts status Part.all = shown
    rfl
  · rw [snd_boot, snd_boot]
    simp only [shift, Agenda.register_shift]

end Controller

/-! ## The console -/

namespace Console

/-- What happens to a console. -/
inductive Step (ι : Type)
  | boot (loader : Asset → Option ι) (status : Status) (now : UInt32)
  | event (event : Event) (status : Status) (now : UInt32)
  /-- A chore runs, and is re-armed when it ended. -/
  | run (token : Token) (chore : Chore) (status : Status) (now ended : UInt32)
  | poll (now : UInt32)
  | nextDeadline (now : UInt32)

/-- The answer of a step. -/
inductive Answer
  | nothing
  /-- The chore to be run. -/
  | due (chore : Option (Token × Chore))
  /-- When a chore runs again. -/
  | rearm (rearm : Rearm)
  /-- The time until a chore is to run. -/
  | wait (time : Option UInt32)
  deriving DecidableEq, Repr

/-- The same step, moved by a distance. -/
def Step.shift {ι : Type} (distance : UInt32) : Step ι → Step ι
  | .boot loader status now => .boot loader status (now + distance)
  | .event reported status now => .event reported status (now + distance)
  | .run token chore status now ended =>
    .run token chore status (now + distance) (ended + distance)
  | .poll now => .poll (now + distance)
  | .nextDeadline now => .nextDeadline (now + distance)

variable {S ι : Type} [Surface S ι] {capacity : Nat}

/-- The console after a step. -/
def step (k : Console S ι capacity) : Step ι → Console S ι capacity
  | .boot loader status now => k.boot loader status now
  | .event event status now => k.handle event status now
  | .run token chore status now ended =>
    let (controller, rearm) := k.controller.runChore chore status now
    { k with controller, agenda := k.agenda.complete token rearm ended }
  | .poll now => { k with agenda := (k.agenda.poll now).1 }
  | .nextDeadline now => { k with agenda := (k.agenda.nextDeadline now).1 }

/-- The answer of a step. -/
def answer (k : Console S ι capacity) : Step ι → Answer
  | .boot _ _ _ | .event _ _ _ => .nothing
  | .run _ chore status now _ => .rearm (k.controller.runChore chore status now).2
  | .poll now => .due (k.agenda.poll now).2
  | .nextDeadline now => .wait (k.agenda.nextDeadline now).2

/-- What can be seen of a console after a step. -/
structure Sight (ι : Type) where
  answer : Answer
  /-- The calls of the surface so far, and how each was answered. -/
  calls : Trace ι
  powered : Bool
  shutDown : Bool
  /-- How often the key LEDs were asked to go dark so far. -/
  darks : Nat

/-- What is seen of a console after an answer. -/
def see (k : Console (Traced S ι) ι capacity) (answer : Answer) : Sight ι where
  answer
  calls := k.controller.surface.trace
  powered := k.controller.power.powered
  shutDown := k.controller.shutDown
  darks := k.darks

/-- What is seen after each of some steps. -/
def watch (k : Console (Traced S ι) ι capacity) : List (Step ι) → List (Sight ι)
  | [] => []
  | step :: rest => (k.step step).see (k.answer step) :: (k.step step).watch rest

/-- The same console, moved by a distance. -/
def shift (distance : UInt32) (k : Console S ι capacity) : Console S ι capacity where
  controller := k.controller.shift distance
  agenda := k.agenda.shift distance
  darks := k.darks

/-- **One step.** A console that is shifted makes the same step. -/
theorem step_shift (k : Console S ι capacity) (distance : UInt32) (step : Step ι) :
    (k.shift distance).step (step.shift distance) = (k.step step).shift distance ∧
      (k.shift distance).answer (step.shift distance) = k.answer step := by
  cases step with
  | boot loader status now =>
    refine ⟨?_, rfl⟩
    simp only [Console.step, Step.shift, boot, shift, Controller.boot_shift]
  | event reported status now =>
    refine ⟨?_, rfl⟩
    simp only [Console.step, Step.shift, handle, shift, Controller.handle_shift]
  | run token chore status now ended =>
    simp only [Console.step, answer, Step.shift, shift, Controller.runChore_shift,
      Agenda.complete_shift, and_self]
  | poll now =>
    simp only [Console.step, answer, Step.shift, shift, Agenda.poll_shift, and_self]
  | nextDeadline now =>
    simp only [Console.step, answer, Step.shift, shift, Agenda.nextDeadline_shift, and_self]

/-- Consoles that are shifted look the same at every step. -/
theorem watch_map_shift (k : Console (Traced S ι) ι capacity) (distance : UInt32)
    (steps : List (Step ι)) :
    (k.shift distance).watch (steps.map (Step.shift distance)) = k.watch steps := by
  -- Induction on the steps: what is seen of a console does not show a time.
  induction steps generalizing k with
  | nil => rfl
  | cons step rest ih =>
    obtain ⟨hstep, hanswer⟩ := step_shift k distance step
    rw [List.map_cons, watch, watch, hstep, hanswer, ih]
    rfl

/-- **The rollover cannot be told.** Make a controller of any surface, boot it, let it handle
events, run and complete chores, and ask its agenda for the chore to be run and the time to wait, in
any order and at any readings of the clock. Move every reading by the same distance around the
clock. After each step the answer, the calls of the surface with its replies, the power state, the
shutdown and the dark key LEDs are the same. -/
theorem watch_shift (surface : S) (settings : Settings) (born distance : UInt32)
    (steps : List (Step ι)) :
    (start (Traced.fresh surface) settings (born + distance) :
        Console (Traced S ι) ι capacity).watch (steps.map (Step.shift distance)) =
      (start (Traced.fresh surface) settings born : Console (Traced S ι) ι capacity).watch
        steps := by
  have hstart : (start (Traced.fresh surface) settings (born + distance) :
      Console (Traced S ι) ι capacity) = (start (Traced.fresh surface) settings born).shift
        distance := rfl
  rw [hstart]
  exact watch_map_shift _ distance steps

end Console

end StatusPanel
