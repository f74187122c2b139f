import StatusPanel.Agenda.Drain
import StatusPanel.Asset.Builtin
import StatusPanel.Controller
import StatusPanel.Firmware.Clock
import StatusPanel.Firmware.Shared
import StatusPanel.Panel.Basic

/-!
# The display task

The owner of the display controller and its agenda. The task runs every chore that is due, then
waits for the next event or the next deadline, whichever comes first; an event that waits already
comes before a deadline that is reached. A deadline beyond the clock halts the task.

## Main definitions

* `DisplayTask`: the task between its turns
* `DisplayTask.settle`: runs the due chores and sets the alarm
* `DisplayTask.serveNext`: handles one event
* `DisplayTask.poll`: runs the task until it waits
-/

namespace StatusPanel

/-- The number of chores the agenda of the display has room for. -/
def choreCapacity : Nat := 4

/-- The wait in milliseconds when no chore is registered. -/
def idleWait : UInt32 := 1000

/-- The display task. -/
inductive DisplayTask
  /-- Created, but not run yet. -/
  | created (panel : Panel) (settings : Settings)
  /-- Waiting for an event, or for the clock to reach the alarm. -/
  | waiting (controller : Controller Panel Bitmap) (agenda : Agenda choreCapacity) (alarm : Nat)
  /-- Running chores that are due for ever. -/
  | stuck (panel : Panel)
  /-- Halted, because the next deadline is beyond the clock. -/
  | halted (panel : Panel)

namespace DisplayTask

/-- The panel of the task. -/
def panel : DisplayTask → Panel
  | .created panel _ => panel
  | .waiting controller _ _ => controller.surface
  | .stuck panel => panel
  | .halted panel => panel

/-- Whether the task halted. -/
def isHalted : DisplayTask → Bool
  | .halted _ => true
  | _ => false

/-- The task with a change of its bus. -/
def mapBus (change : Bus → Bus) : DisplayTask → DisplayTask
  | .created panel settings => .created { panel with bus := change panel.bus } settings
  | .waiting controller agenda alarm =>
    .waiting { controller with
      surface := { controller.surface with bus := change controller.surface.bus } } agenda alarm
  | .stuck panel => .stuck { panel with bus := change panel.bus }
  | .halted panel => .halted { panel with bus := change panel.bus }

/-- Runs the chores that are due and sets the alarm, if the clock reaches that far. Each chore is
re-armed with a delay of its own that never changes, so if one is still due when all had a run, it
is due for ever. -/
def settle (controller : Controller Panel Bitmap) (agenda : Agenda choreCapacity)
    (status : Status) (clock : Nat) : DisplayTask :=
  let now := Clock.milliseconds clock
  let act := fun (c : Controller Panel Bitmap) chore => c.runChore chore status now
  let drained := agenda.drain act now agenda.size controller
  if drained.finished then
    let (agenda, deadline) := drained.agenda.nextDeadline now
    match Clock.after? clock ((deadline.getD idleWait).toNat * 1000) with
    | some alarm => .waiting drained.state agenda alarm
    | none => .halted drained.state.surface
  else .stuck drained.state.surface

/-- Starts the controller and draws the first screen. -/
def start (panel : Panel) (settings : Settings) (status : Status) (clock : Nat) : DisplayTask :=
  let now := Clock.milliseconds clock
  let controller : Controller Panel Bitmap := .start panel settings now
  let (controller, agenda) := controller.boot (Bitmap.load Builtin.table) .empty status now
  settle controller agenda status clock

/-- Handles the oldest event that waits, if there is one, and settles. -/
def serveNext (task : DisplayTask) (shared : Shared) (clock : Nat) : DisplayTask × Shared :=
  match task, shared.events.receive with
  | .waiting controller agenda _, (events, some event) =>
    let (controller, agenda, dark) :=
      controller.handle agenda event shared.status (Clock.milliseconds clock)
    (settle controller agenda shared.status clock,
      { shared with events, darkWanted := shared.darkWanted || dark })
  | task, _ => (task, shared)

/-- Handles a number of the events that wait, in order. -/
def serve (clock : Nat) : Nat → DisplayTask → Shared → DisplayTask × Shared
  | 0, task, shared => (task, shared)
  | count + 1, task, shared =>
    let (task, shared) := serveNext task shared clock
    serve clock count task shared

/-- Handles all events that wait. -/
def serveAll (task : DisplayTask) (shared : Shared) (clock : Nat) : DisplayTask × Shared :=
  serve clock shared.events.size task shared

/-- Runs the task until it waits. -/
def poll (task : DisplayTask) (shared : Shared) (clock : Nat) :
    DisplayTask × Shared × List LogRecord :=
  match task with
  | .created panel settings =>
    let (task, shared) := serveAll (start panel settings shared.status clock) shared clock
    (task, shared, [.info "Display task started"])
  | .waiting controller agenda alarm =>
    if shared.events.messages = [] ∧ alarm ≤ clock then
      (settle controller agenda shared.status clock, shared, [])
    else
      let (task, shared) := serveAll (.waiting controller agenda alarm) shared clock
      (task, shared, [])
  | .stuck panel => (.stuck panel, shared, [])
  | .halted panel => (.halted panel, shared, [])

end DisplayTask

end StatusPanel
