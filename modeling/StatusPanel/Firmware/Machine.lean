import StatusPanel.Firmware.DisplayTask
import StatusPanel.Firmware.IndicatorTask
import StatusPanel.Firmware.TypingTask

/-!
# The machine

The firmware as a whole: a clock, what the tasks share, the three tasks, and what the outside sees
of them. The rest of the keyboard publishes events at any time; the tasks take turns in a fixed
order. When a task halts, or the clock runs out, no task has a turn any more.

## Main definitions

* `Machine`: the firmware between two turns
* `Machine.assemble`: the firmware with its tasks created
* `Machine.publish`, `Machine.run`: an event, and a turn of every task
* `Machine.isHalted`: whether no task has a turn any more
-/

namespace StatusPanel

/-- The firmware. -/
structure Machine where
  /-- The time since boot in microseconds. -/
  clock : Nat
  shared : Shared
  display : DisplayTask
  typing : TypingTask
  indicator : IndicatorTask := {}
  /-- The frames sent to the LED chain. -/
  frames : Array Frame := #[]
  /-- The log. -/
  log : Array LogRecord := #[]

namespace Machine

/-- The number of tasks. -/
def taskCount : Nat := 3

/-- The firmware with its tasks created around a panel that was brought up, or not. -/
def assemble (panel : Panel) (settings : Settings) (clock : Nat) : Machine where
  clock := clock
  shared := .start settings.lighting
  display := .created panel settings
  typing := .created settings.typing

/-- Adds records to the log. -/
def note (m : Machine) (records : List LogRecord) : Machine :=
  { m with log := m.log ++ records.toArray }

/-- Publishes an event. -/
def publish (m : Machine) (event : Event) : Machine :=
  let (shared, records) := m.shared.publish event
  { m with shared }.note records

/-- Publishes events in order. -/
def publishAll (m : Machine) (events : List Event) : Machine :=
  events.foldl publish m

/-- Asks for dark key LEDs. -/
def wantDark (m : Machine) : Machine :=
  { m with shared := { m.shared with darkWanted := true } }

/-- Takes the oldest event that waits for the display. -/
def receive (m : Machine) : Machine × Option Event :=
  let (events, event) := m.shared.events.receive
  ({ m with shared := { m.shared with events } }, event)

/-- Takes the count of keystrokes. -/
def takeKeystrokes (m : Machine) : Machine × UInt32 :=
  let (shared, count) := m.shared.takeKeystrokes
  ({ m with shared }, count)

/-- Lets time pass. -/
def wait (m : Machine) (time : Nat) : Machine := { m with clock := m.clock + time }

/-- Whether the machine halted: its clock ran out, or a task asked for a time beyond the clock. -/
def isHalted (m : Machine) : Bool :=
  Clock.limit ≤ m.clock || m.display.isHalted || m.typing.isHalted

/-- A turn of the display task. -/
def runDisplay (m : Machine) : Machine :=
  if m.isHalted then m
  else
    let (display, shared, records) := m.display.poll m.shared m.clock
    { m with display, shared }.note records

/-- A turn of the typing-speed task. -/
def runTyping (m : Machine) : Machine :=
  if m.isHalted then m
  else
    let (typing, shared, records) := m.typing.poll m.shared m.clock
    { m with typing, shared }.note records

/-- A turn of the indicator task. -/
def runIndicator (m : Machine) : Machine :=
  if m.isHalted then m
  else
    let (indicator, shared, frames, records) := m.indicator.poll m.shared
    { m with indicator, shared, frames := m.frames ++ frames.toArray }.note records

/-- Lets time pass and gives every task a turn. -/
def run (m : Machine) (time : Nat) : Machine :=
  (m.wait time).runDisplay.runTyping.runIndicator

/-- The milliseconds of the clock, on 32 bits. -/
def now (m : Machine) : UInt32 := Clock.milliseconds m.clock

/-- The bus of the panel. -/
def bus (m : Machine) : Bus := m.display.panel.bus

/-- The machine with a change of its bus. -/
def mapBus (m : Machine) (change : Bus → Bus) : Machine :=
  { m with display := m.display.mapBus change }

end Machine

end StatusPanel
