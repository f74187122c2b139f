import StatusPanel.Proofs.Firmware.Iterations

/-!
# Firmwares that run abreast

The answers of the panel steer nothing. Two controllers that differ in their surfaces and painters
only take the same power steps and re-arm their chores alike, whatever the surfaces refuse; so two
firmwares that differ in their panels only do the same at the same time.

## Main definitions

* `Controller.Abreast`, `DisplayTask.Abreast`, `Machine.Abreast`: the same apart from the panel

## Main results

* `Controller.Abreast.take`, `Controller.Abreast.handle`, `Controller.Abreast.runChore`: controllers
  stay abreast and answer alike
* `Machine.Abreast.move`: every move leaves firmwares abreast
-/

namespace StatusPanel

/-! ## Controllers -/

namespace Controller

/-- Controllers that differ in surface and painter only. -/
structure Abreast {S T ι κ : Type} (c : Controller S ι) (d : Controller T κ) : Prop where
  power : c.power = d.power
  settings : c.settings = d.settings
  idleToken : c.idleToken = d.idleToken
  barToken : c.barToken = d.barToken
  shutDown : c.shutDown = d.shutDown

variable {S T ι κ : Type} {capacity : Nat}

namespace Abreast

variable {c : Controller S ι} {d : Controller T κ} [Surface S ι] [Surface T κ]

omit [Surface S ι] [Surface T κ] in
theorem terms (h : Abreast c d) : c.terms = d.terms := by
  rw [Controller.terms, Controller.terms, h.power, h.settings, h.idleToken, h.barToken]

theorem stepPower (h : Abreast c d) (step : Power × Switch) :
    Abreast (c.stepPower step) (d.stepPower step) := by
  obtain ⟨power, s⟩ := step
  cases s <;> exact ⟨rfl, h.settings, h.idleToken, h.barToken, h.shutDown⟩

theorem showParts (h : Abreast c d) (status other : Status) (parts others : List Part) :
    Abreast (c.showParts status parts) (d.showParts other others) :=
  ⟨h.power, h.settings, h.idleToken, h.barToken, h.shutDown⟩

/-- Plans may differ in their redraws. -/
theorem execute (h : Abreast c d) {plan other : Plan} (hstep : plan.step = other.step)
    (hends : plan.ends = other.ends) : Abreast (c.execute plan) (d.execute other) := by
  have hshut : Abreast { c with shutDown := plan.ends } { d with shutDown := other.ends } :=
    ⟨h.power, h.settings, h.idleToken, h.barToken, hends⟩
  unfold Controller.execute
  rw [hstep]
  exact (hshut.stepPower other.step).showParts _ _ _ _

/-- Controllers stay abreast, whatever their surfaces answer. -/
theorem take (h : Abreast c d) (input : Input capacity) :
    Abreast (c.take input) (d.take input) := by
  cases hc : c.shutDown with
  | true =>
    rw [take_of_shutDown hc, take_of_shutDown (h.shutDown ▸ hc)]
    exact h
  | false =>
    have hd : d.shutDown = false := h.shutDown ▸ hc
    -- the power state alone decides on the power step of a plan, the painter on its redraw
    have hplan : (c.plan (.boot .initial) input).step = (d.plan (.boot .initial) input).step ∧
        (c.plan (.boot .initial) input).ends = (d.plan (.boot .initial) input).ends := by
      cases input with
      | event agenda event status now =>
        cases event <;> simp [plan, planEvent, Plan.power, Plan.shutdown, h.power]
      | _ => simp [plan, Plan.power, Plan.shutdown, h.power]
    rw [take_of_live hc (.boot .initial), take_of_live hd (.boot .initial)]
    exact h.execute hplan.1 hplan.2

theorem handle (h : Abreast c d) (agenda : Agenda capacity) (event : Event) (status : Status)
    (now : UInt32) :
    Abreast (c.handle agenda event status now).1 (d.handle agenda event status now).1 ∧
      (c.handle agenda event status now).2 = (d.handle agenda event status now).2 := by
  refine ⟨h.take (.event agenda event status now), ?_⟩
  rw [snd_handle, snd_handle, h.shutDown, h.barToken]

theorem runChore (h : Abreast c d) (chore : Chore) (status : Status) (now : UInt32) :
    Abreast (c.runChore chore status now).1 (d.runChore chore status now).1 ∧
      (c.runChore chore status now).2 = (d.runChore chore status now).2 := by
  have hrearm : c.rearm chore = d.rearm chore := by
    rw [rearm, rearm, h.shutDown, h.terms]
  refine ⟨?_, by rw [snd_runChore, snd_runChore, hrearm]⟩
  rw [← take_input, ← take_input]
  exact h.take (chore.input status now : Input 0)

theorem boot (h : Abreast c d) (loader : Asset → Option ι) (other : Asset → Option κ)
    (agenda : Agenda capacity) (status : Status) (now : UInt32) :
    Abreast (c.boot loader agenda status now).1 (d.boot other agenda status now).1 ∧
      (c.boot loader agenda status now).2 = (d.boot other agenda status now).2 := by
  have hload : Abreast (c.load loader) (d.load other) :=
    ⟨h.power, h.settings, h.idleToken, h.barToken, h.shutDown⟩
  have hshow := (hload.stepPower (c.power.activity now)).showParts status status Part.all Part.all
  rw [snd_boot, snd_boot, fst_boot, fst_boot, h.settings, ← h.power]
  exact ⟨⟨hshow.power, hshow.settings, rfl, rfl, hshow.shutDown⟩, rfl⟩

end Abreast

end Controller

/-! ## Display tasks -/

namespace DisplayTask

/-- Tasks that differ in their panels and painters only. -/
def Abreast : DisplayTask → DisplayTask → Prop
  | .created _ settings, .created _ others => settings = others
  | .waiting controller agenda alarm, .waiting controller' agenda' alarm' =>
    controller.Abreast controller' ∧ agenda = agenda' ∧ alarm = alarm'
  | .stuck _, .stuck _ | .halted _, .halted _ => True
  | _, _ => False

/-- What woke two tasks, if they differ in their panels and painters only. -/
structure Awake.Abreast (a b : Awake) : Prop where
  controller : a.controller.Abreast b.controller
  agenda : a.agenda = b.agenda
  shared : a.shared = b.shared

variable {task other : DisplayTask}

theorem Abreast.isHalted (h : task.Abreast other) : task.isHalted = other.isHalted := by
  cases task <;> cases other <;> first | rfl | cases h

/-- Tasks abreast are woken at the same time, and alike. -/
theorem Abreast.wake? (h : task.Abreast other) (shared : Shared) (clock : Nat) :
    Option.Rel Awake.Abreast (task.wake? shared clock) (other.wake? shared clock) := by
  cases task with
  | created panel settings =>
    cases other with
    | created panel' others =>
      obtain rfl := h
      -- both boot with the built-in pictures, from the shared status
      have hstart : Controller.Abreast
          (Controller.start panel settings (Clock.milliseconds clock) : Controller Panel Bitmap)
          (Controller.start panel' settings (Clock.milliseconds clock) :
            Controller Panel Bitmap) := ⟨rfl, rfl, rfl, rfl, rfl⟩
      have hboot := hstart.boot (Bitmap.load Builtin.table) (Bitmap.load Builtin.table)
        (.empty : Agenda choreCapacity) shared.status (Clock.milliseconds clock)
      exact .some ⟨hboot.1, hboot.2, rfl⟩
    | _ => cases h
  | waiting controller agenda alarm =>
    cases other with
    | waiting controller' agenda' alarm' =>
      obtain ⟨hc, rfl, rfl⟩ := h
      unfold DisplayTask.wake?
      rcases shared.events.receive with ⟨rest, _ | event⟩
      · dsimp only
        split
        · exact .some ⟨hc, rfl, rfl⟩
        · exact .none
      · obtain ⟨hcontroller, hanswer⟩ :=
          hc.handle agenda event shared.status (Clock.milliseconds clock)
        exact .some ⟨hcontroller, congrArg Prod.fst hanswer, congrArg (fun answer : _ × Bool =>
          { shared with events := rest, darkWanted := shared.darkWanted || answer.2 }) hanswer⟩
    | _ => cases h
  | stuck panel => cases other <;> first | exact .none | cases h
  | halted panel => cases other <;> first | exact .none | cases h

section

variable {controller other : Controller Panel Bitmap} (h : controller.Abreast other)
  (agenda : Agenda choreCapacity) (status : Status) (clock : Nat)

include h

theorem drained_of_abreast :
    (drained controller agenda status clock).state.Abreast
        (drained other agenda status clock).state ∧
      (drained controller agenda status clock).agenda =
        (drained other agenda status clock).agenda ∧
      (drained controller agenda status clock).runs = (drained other agenda status clock).runs ∧
      (drained controller agenda status clock).finished =
        (drained other agenda status clock).finished :=
  Agenda.drain_of_related (fun hcd chore => hcd.runChore chore status (Clock.milliseconds clock)) _
    _ h agenda

theorem dueInputs_of_abreast :
    dueInputs controller agenda status clock = dueInputs other agenda status clock :=
  congrArg (List.map _) (drained_of_abreast h agenda status clock).2.2.1

theorem abreast_settle :
    (settle controller agenda status clock).Abreast (settle other agenda status clock) := by
  obtain ⟨hstate, hagenda, -, hfinished⟩ := drained_of_abreast h agenda status clock
  rw [settle_eq, settle_eq]
  dsimp only
  rw [hfinished, hagenda]
  split
  · split
    · exact ⟨hstate, rfl, rfl⟩
    · exact trivial
  · exact trivial

end

theorem Abreast.iterate (h : task.Abreast other) (shared : Shared) (clock : Nat) :
    (DisplayTask.iterate clock (task, shared)).1.Abreast
        (DisplayTask.iterate clock (other, shared)).1 ∧
      (DisplayTask.iterate clock (task, shared)).2 =
        (DisplayTask.iterate clock (other, shared)).2 := by
  have hwake := h.wake? shared clock
  unfold DisplayTask.iterate
  dsimp only
  generalize task.wake? shared clock = first at hwake ⊢
  generalize other.wake? shared clock = second at hwake ⊢
  cases hwake with
  | none => exact ⟨h, rfl⟩
  | some ha =>
    dsimp only
    rw [ha.agenda, ha.shared]
    exact ⟨abreast_settle ha.controller _ _ _, rfl⟩

end DisplayTask

/-! ## Machines -/

namespace Machine

/-- Firmwares that differ in their panels and in what they noted. -/
structure Abreast (m n : Machine) : Prop where
  clock : m.clock = n.clock
  shared : m.shared = n.shared
  display : m.display.Abreast n.display
  typing : m.typing = n.typing
  indicator : m.indicator = n.indicator

namespace Abreast

variable {m n : Machine}

theorem isHalted (h : Abreast m n) : m.isHalted = n.isHalted := by
  rw [Machine.isHalted, Machine.isHalted, h.clock, h.display.isHalted, h.typing]

theorem iterateDisplay (h : Abreast m n) : Abreast m.iterateDisplay n.iterateDisplay := by
  unfold Machine.iterateDisplay
  rw [h.isHalted]
  split
  · exact h
  · rw [h.clock, h.shared]
    obtain ⟨hdisplay, hshared⟩ := h.display.iterate n.shared n.clock
    exact ⟨h.clock, hshared, hdisplay, h.typing, h.indicator⟩

theorem runTyping (h : Abreast m n) : Abreast m.runTyping n.runTyping := by
  unfold Machine.runTyping
  rw [h.isHalted]
  split
  · exact h
  · rw [h.clock, h.shared, h.typing]
    exact ⟨rfl, rfl, h.display, rfl, h.indicator⟩

theorem runIndicator (h : Abreast m n) : Abreast m.runIndicator n.runIndicator := by
  unfold Machine.runIndicator
  rw [h.isHalted]
  split
  · exact h
  · rw [h.shared, h.indicator]
    exact ⟨h.clock, rfl, h.display, h.typing, rfl⟩

/-- Every move leaves firmwares abreast: the answers of the panel steer nothing. -/
theorem move (h : Abreast m n) (mv : Move) : Abreast (m.move mv) (n.move mv) := by
  cases mv with
  | publish event =>
    have hshared := congrArg (fun s : Shared => (s.publish event).1) h.shared
    exact ⟨h.clock, hshared, h.display, h.typing, h.indicator⟩
  | wait time =>
    exact ⟨congrArg (· + time) h.clock, h.shared, h.display, h.typing, h.indicator⟩
  | display => exact h.iterateDisplay
  | typing => exact h.runTyping
  | indicator => exact h.runIndicator

end Abreast

end Machine

end StatusPanel
