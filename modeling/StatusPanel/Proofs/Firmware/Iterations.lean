import Mathlib.Logic.Function.Iterate
import StatusPanel.Firmware.Machine
import StatusPanel.Proofs.Agenda.Drain
import StatusPanel.Proofs.Controller.Answers

/-!
# Iterations of the display task

In a turn the display task handles every event that waits. A turn is a number of iterations: the
task is woken by its start, an event or its alarm, and settles. Events can be published, and the
other tasks can have a turn, between any two iterations.

## Main definitions

* `DisplayTask.wake?`, `DisplayTask.iterate`: what wakes the task, and one iteration
* `DisplayTask.dueInputs`: what the due chores ask of the controller
* `Move`, `Machine.move`: what can happen to the firmware between two iterations

## Main results

* `DisplayTask.settle_cases`: the task settles with the controller after the due chores
* `Machine.run_eq_turn`: every turn of the tasks is made of moves
-/

namespace StatusPanel

/-! ## Chores that are due -/

namespace DisplayTask

/-- The drain of the chores that are due when the task settles. -/
def drained (controller : Controller Panel Bitmap) (agenda : Agenda choreCapacity)
    (status : Status) (clock : Nat) : Drained (Controller Panel Bitmap) choreCapacity :=
  let now := Clock.milliseconds clock
  agenda.drain (fun c chore => c.runChore chore status now) now agenda.size controller

/-- What the chores that are due ask of the controller, in order. -/
def dueInputs (controller : Controller Panel Bitmap) (agenda : Agenda choreCapacity)
    (status : Status) (clock : Nat) : List (Controller.Input choreCapacity) :=
  (drained controller agenda status clock).runs.map fun run =>
    run.chore.input status (Clock.milliseconds clock)

theorem state_drained (controller : Controller Panel Bitmap) (agenda : Agenda choreCapacity)
    (status : Status) (clock : Nat) :
    (drained controller agenda status clock).state =
      (dueInputs controller agenda status clock).foldl Controller.take controller := by
  rw [dueInputs, List.foldl_map, drained, Agenda.state_drain]
  simp only [Controller.take_input]

theorem settle_eq (controller : Controller Panel Bitmap) (agenda : Agenda choreCapacity)
    (status : Status) (clock : Nat) :
    settle controller agenda status clock =
      let outcome := drained controller agenda status clock
      if outcome.finished then
        let (agenda, deadline) := outcome.agenda.nextDeadline (Clock.milliseconds clock)
        match Clock.after? clock ((deadline.getD idleWait).toNat * 1000) with
        | some alarm => .waiting outcome.state agenda alarm
        | none => .halted outcome.state.surface
      else .stuck outcome.state.surface := rfl

theorem mem_dueInputs {controller : Controller Panel Bitmap} {agenda : Agenda choreCapacity}
    {status : Status} {clock : Nat} {input : Controller.Input choreCapacity}
    (h : input ∈ dueInputs controller agenda status clock) :
    (∃ now, input = .idleCheck now) ∨ input = .barRedraw status := by
  obtain ⟨run, -, rfl⟩ := List.mem_map.1 h
  cases run.chore with
  | idleCheck => exact Or.inl ⟨_, rfl⟩
  | barRedraw => exact Or.inr rfl

/-- The task settles with the controller after the due chores, waiting, halted or stuck. -/
theorem settle_cases (controller : Controller Panel Bitmap) (agenda : Agenda choreCapacity)
    (status : Status) (clock : Nat) :
    let after := (dueInputs controller agenda status clock).foldl Controller.take controller
    (∃ agenda' alarm, settle controller agenda status clock = .waiting after agenda' alarm) ∨
      settle controller agenda status clock = .halted after.surface ∨
      settle controller agenda status clock = .stuck after.surface := by
  intro after
  have hafter : (drained controller agenda status clock).state = after :=
    state_drained controller agenda status clock
  rw [settle_eq]
  dsimp only
  rw [hafter]
  split
  · split
    · exact Or.inl ⟨_, _, rfl⟩
    · exact Or.inr (Or.inl rfl)
  · exact Or.inr (Or.inr rfl)

/-! ## Iterations -/

/-- The display task when something woke it: its controller and agenda before the due chores, and
what the tasks share. -/
structure Awake where
  controller : Controller Panel Bitmap
  agenda : Agenda choreCapacity
  shared : Shared

/-- Wakes the task for its start, for an event, or for its alarm; `none` if it sleeps on. -/
def wake? (task : DisplayTask) (shared : Shared) (clock : Nat) : Option Awake :=
  let now := Clock.milliseconds clock
  match task with
  | .created panel settings =>
    let controller : Controller Panel Bitmap := .start panel settings now
    let (controller, agenda) := controller.boot (Bitmap.load Builtin.table) .empty shared.status now
    some ⟨controller, agenda, shared⟩
  | .waiting controller agenda alarm =>
    match shared.events.receive with
    | (events, some event) =>
      let (controller, agenda, dark) := controller.handle agenda event shared.status now
      some ⟨controller, agenda, { shared with events, darkWanted := shared.darkWanted || dark }⟩
    | (_, none) => if alarm ≤ clock then some ⟨controller, agenda, shared⟩ else none
  | .stuck _ | .halted _ => none

/-- An iteration of the task: it settles if something woke it. -/
def iterate (clock : Nat) : DisplayTask × Shared → DisplayTask × Shared
  | (task, shared) =>
    match task.wake? shared clock with
    | some awake => (settle awake.controller awake.agenda awake.shared.status clock, awake.shared)
    | none => (task, shared)

/-- Whether the task was created but has not run yet. -/
def isCreated : DisplayTask → Bool
  | .created _ _ => true
  | _ => false

/-- What the task notes in the log when it runs. -/
def notes : DisplayTask → List LogRecord
  | .created _ _ => [.info "Display task started"]
  | _ => []

theorem notes_of_not_created {task : DisplayTask} (h : task.isCreated = false) :
    task.notes = [] := by
  cases task with
  | created panel settings => cases h
  | _ => rfl

theorem isCreated_settle (controller : Controller Panel Bitmap) (agenda : Agenda choreCapacity)
    (status : Status) (clock : Nat) :
    (settle controller agenda status clock).isCreated = false := by
  rcases settle_cases controller agenda status clock with ⟨_, _, h⟩ | h | h <;> rw [h] <;> rfl

theorem isCreated_start (panel : Panel) (settings : Settings) (status : Status) (clock : Nat) :
    (start panel settings status clock).isCreated = false := by
  unfold start
  dsimp only
  exact isCreated_settle ..

theorem isCreated_iterate {clock : Nat} {p : DisplayTask × Shared} (h : p.1.isCreated = false) :
    (iterate clock p).1.isCreated = false := by
  obtain ⟨task, shared⟩ := p
  unfold iterate
  dsimp only
  split
  · exact isCreated_settle ..
  · exact h

theorem iterate_created (panel : Panel) (settings : Settings) (shared : Shared) (clock : Nat) :
    iterate clock (.created panel settings, shared) =
      (start panel settings shared.status clock, shared) := by
  simp only [iterate, wake?, start]

/-- A task that was created has run after its first iteration. -/
theorem isCreated_iterate_of_created {task : DisplayTask} (h : task.isCreated = true)
    (shared : Shared) (clock : Nat) : (iterate clock (task, shared)).1.isCreated = false := by
  cases task with
  | created panel settings =>
    rw [iterate_created]
    dsimp only
    exact isCreated_start ..
  | _ => cases h

/-! ## Turns are made of iterations -/

theorem exists_receive_of_pos {events : Mailbox eventCapacity Event} (h : 0 < events.size) :
    ∃ rest event, events.receive = (rest, some event) ∧ rest.size + 1 = events.size := by
  obtain ⟨messages, hle⟩ := events
  cases messages with
  | nil => cases h
  | cons event rest => exact ⟨_, event, rfl, rfl⟩

theorem messages_of_receive {events rest : Mailbox eventCapacity Event} {event : Event}
    (h : events.receive = (rest, some event)) : events.messages = event :: rest.messages := by
  obtain ⟨messages, hle⟩ := events
  cases messages with
  | nil => cases h
  | cons first others =>
    cases h
    rfl

theorem receive_of_empty {events : Mailbox eventCapacity Event} (h : events.messages = []) :
    events.receive = (events, none) := by
  obtain ⟨messages, hle⟩ := events
  subst h
  rfl

/-- Handling events that wait is iterating. -/
theorem serve_eq_iterate (clock : Nat) {count : Nat} {task : DisplayTask} {shared : Shared}
    (hcount : count ≤ shared.events.size) (hc : task.isCreated = false) :
    serve clock count task shared = (iterate clock)^[count] (task, shared) := by
  -- Induction on the events to handle, of which at least so many wait.
  induction count generalizing task shared with
  | zero => rfl
  | succ count ih =>
    rw [serve, Function.iterate_succ_apply]
    cases task with
    | created panel settings => cases hc
    | waiting controller agenda alarm =>
      obtain ⟨rest, event, hreceive, hsize⟩ := exists_receive_of_pos (Nat.zero_lt_of_lt hcount)
      simp only [serveNext, iterate, wake?, hreceive]
      exact ih (by dsimp only; omega) (isCreated_settle ..)
    | stuck panel => exact ih (Nat.le_of_succ_le hcount) rfl
    | halted panel => exact ih (Nat.le_of_succ_le hcount) rfl

/-- A turn of the display task is a number of iterations, and its first one at least one. -/
theorem poll_eq_iterate (task : DisplayTask) (shared : Shared) (clock : Nat) :
    ∃ count, (task.isCreated = true → 0 < count) ∧ task.poll shared clock =
      (((iterate clock)^[count] (task, shared)).1, ((iterate clock)^[count] (task, shared)).2,
        task.notes) := by
  cases task with
  | created panel settings =>
    refine ⟨shared.events.size + 1, fun _ => Nat.succ_pos _, ?_⟩
    rw [Function.iterate_succ_apply, iterate_created, poll, serveAll,
      serve_eq_iterate clock (Nat.le_refl _) (isCreated_start ..)]
    rfl
  | waiting controller agenda alarm =>
    rw [poll]
    split
    case isTrue hdue =>
      -- no event waits and the alarm is due: one iteration, for the alarm
      obtain ⟨hnone, halarm⟩ := hdue
      refine ⟨1, by simp [isCreated], ?_⟩
      simp [iterate, wake?, receive_of_empty hnone, halarm, notes]
    case isFalse =>
      refine ⟨shared.events.size, by simp [isCreated], ?_⟩
      rw [serveAll, serve_eq_iterate clock (Nat.le_refl _) rfl]
      rfl
  | stuck panel => exact ⟨0, by simp [isCreated], rfl⟩
  | halted panel => exact ⟨0, by simp [isCreated], rfl⟩

end DisplayTask

/-! ## Moves of the firmware -/

theorem foldl_replicate {α β : Type} (f : β → α → β) (a : α) (count : Nat) (b : β) :
    (List.replicate count a).foldl f b = (f · a)^[count] b := by
  induction count generalizing b with
  | zero => rfl
  | succ count ih => exact ih _

/-- What can happen to the firmware between two iterations of the display task. -/
inductive Move
  /-- The keyboard publishes an event. -/
  | publish (event : Event)
  /-- Time passes. -/
  | wait (time : Nat)
  /-- The display task iterates. -/
  | display
  /-- The typing-speed task has a turn. -/
  | typing
  /-- The indicator task has a turn. -/
  | indicator

namespace Machine

/-- The machine with its display task and what the tasks share replaced. -/
def withDisplay (m : Machine) (p : DisplayTask × Shared) : Machine :=
  { m with display := p.1, shared := p.2 }

/-- An iteration of the display task. -/
def iterateDisplay (m : Machine) : Machine :=
  if m.isHalted then m
  else (m.withDisplay (DisplayTask.iterate m.clock (m.display, m.shared))).note m.display.notes

/-- The firmware after a move. -/
def move (m : Machine) : Move → Machine
  | .publish event => m.publish event
  | .wait time => m.wait time
  | .display => m.iterateDisplay
  | .typing => m.runTyping
  | .indicator => m.runIndicator

@[simp] theorem note_nil (m : Machine) : m.note [] = m := by
  simp [note]

theorem note_withDisplay (m : Machine) (p : DisplayTask × Shared) (records : List LogRecord) :
    (m.withDisplay p).note records = (m.note records).withDisplay p := rfl

/-- While the clock runs and the typing-speed task did not halt, an iteration of the machine is one
of its display task. -/
theorem iterateDisplay_of_live {m : Machine} (hclock : m.clock < Clock.limit)
    (htyping : m.typing.isHalted = false) :
    m.iterateDisplay =
      (m.withDisplay (DisplayTask.iterate m.clock (m.display, m.shared))).note
        m.display.notes := by
  unfold iterateDisplay
  split
  case isTrue hhalted =>
    have hdisplay : m.display.isHalted = true := by
      simpa [isHalted, htyping, Nat.not_le_of_lt hclock] using hhalted
    obtain ⟨clock, shared, display, typing, indicator, frames, log⟩ := m
    cases display with
    | halted panel => exact (note_nil _).symm
    | _ => cases hdisplay
  case isFalse => rfl

theorem iterate_iterateDisplay {m : Machine} (hclock : m.clock < Clock.limit)
    (htyping : m.typing.isHalted = false) {p : DisplayTask × Shared}
    (hp : p.1.isCreated = false) (count : Nat) :
    iterateDisplay^[count] (m.withDisplay p) =
      m.withDisplay ((DisplayTask.iterate m.clock)^[count] p) := by
  induction count generalizing p with
  | zero => rfl
  | succ count ih =>
    have hnotes := DisplayTask.notes_of_not_created hp
    have hstep : (m.withDisplay p).iterateDisplay =
        m.withDisplay (DisplayTask.iterate m.clock p) := by
      rw [iterateDisplay_of_live (m := m.withDisplay p) hclock htyping]
      exact (congrArg (note _) hnotes).trans (note_nil _)
    rw [Function.iterate_succ_apply, Function.iterate_succ_apply, hstep]
    exact ih (DisplayTask.isCreated_iterate hp)

/-- A turn of the display task is a number of iterations. -/
theorem runDisplay_eq_iterate (m : Machine) : ∃ count, m.runDisplay = iterateDisplay^[count] m := by
  unfold runDisplay
  split
  case isTrue => exact ⟨0, rfl⟩
  case isFalse hlive =>
    simp only [isHalted, Bool.or_eq_true, decide_eq_true_eq, not_or, Nat.not_le,
      Bool.not_eq_true] at hlive
    obtain ⟨⟨hclock, -⟩, htyping⟩ := hlive
    obtain ⟨count, hpos, hpoll⟩ := m.display.poll_eq_iterate m.shared m.clock
    refine ⟨count, ?_⟩
    rw [hpoll]
    cases hcreated : m.display.isCreated with
    | false =>
      -- nothing is noted, so the turn is its iterations
      have hnotes := DisplayTask.notes_of_not_created hcreated
      have hiterate := iterate_iterateDisplay hclock htyping (p := (m.display, m.shared)) hcreated
      exact (congrArg (note _) hnotes).trans ((note_nil _).trans (hiterate count).symm)
    | true =>
      -- the first iteration notes the start, and the ones after it nothing
      obtain ⟨count, rfl⟩ := Nat.exists_eq_succ_of_ne_zero (Nat.ne_of_gt (hpos hcreated))
      rw [Function.iterate_succ_apply, Function.iterate_succ_apply,
        iterateDisplay_of_live hclock htyping, note_withDisplay]
      have hfirst := DisplayTask.isCreated_iterate_of_created hcreated m.shared m.clock
      exact (iterate_iterateDisplay (m := m.note m.display.notes) hclock htyping hfirst count).symm

/-- Time passes and every task has a turn, with a number of iterations of the display task. -/
def turn (time count : Nat) : List Move :=
  .wait time :: (List.replicate count .display ++ [.typing, .indicator])

/-- Every turn of the tasks is made of moves. -/
theorem run_eq_turn (m : Machine) (time : Nat) :
    ∃ count, m.run time = (turn time count).foldl move m := by
  obtain ⟨count, hdisplay⟩ := (m.wait time).runDisplay_eq_iterate
  refine ⟨count, ?_⟩
  rw [run, hdisplay, turn, List.foldl_cons, List.foldl_append, foldl_replicate]
  rfl

end Machine

end StatusPanel
