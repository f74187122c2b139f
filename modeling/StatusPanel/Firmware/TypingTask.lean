import StatusPanel.Firmware.Clock
import StatusPanel.Firmware.Shared
import StatusPanel.Keyboard.Typing
import StatusPanel.Settings.Basic

/-!
# The typing-speed task

The task closes a sample period at every tick of its ticker and puts the estimate into the shared
status. The ticker starts when the task first runs; ticks that were missed are made up for one by
one. A tick is not taken if the one after it would be beyond the clock: the task halts there.

## Main definitions

* `TypingTask`: the task between its turns
* `TypingTask.tick`, `TypingTask.catchUp`: one tick, and a number of them
* `TypingTask.poll`: runs the task until it waits
-/

namespace StatusPanel

/-- The typing-speed task. -/
inductive TypingTask
  /-- Created, but not run yet. -/
  | created (settings : TypingSettings)
  /-- Waiting for the next tick, at a time in microseconds. -/
  | waiting (meter : SpeedMeter) (next : Nat)
  /-- Halted, because the tick after the next is beyond the clock. -/
  | halted

namespace TypingTask

/-- One tick: the keystrokes since the last one are recorded and the period is closed. -/
def tick (meter : SpeedMeter) (shared : Shared) : SpeedMeter × Shared :=
  let (shared, keystrokes) := shared.takeKeystrokes
  let meter := (meter.record keystrokes.toNat).advance
  (meter, { shared with status := { shared.status with wpm := meter.wpm } })

/-- Whether the task halted. -/
def isHalted : TypingTask → Bool
  | .halted => true
  | _ => false

/-- The length of a period in microseconds. -/
def period (meter : SpeedMeter) : Nat := meter.periodMs * 1000

/-- The task when its ticker starts, if the clock reaches the first tick. -/
def start (meter : SpeedMeter) (clock : Nat) : TypingTask :=
  match Clock.after? clock (period meter) with
  | some next => .waiting meter next
  | none => .halted

/-- A number of ticks, the first of them at a time. -/
def catchUp : Nat → SpeedMeter → Nat → Shared → TypingTask × Shared
  | 0, meter, next, shared => (.waiting meter next, shared)
  | count + 1, meter, next, shared =>
    match Clock.after? next (period meter) with
    | some following =>
      let (meter, shared) := tick meter shared
      catchUp count meter following shared
    | none => (.halted, shared)

/-- The number of ticks that are due. -/
def dueTicks (meter : SpeedMeter) (next clock : Nat) : Nat :=
  if clock < next then 0 else (clock - next) / period meter + 1

/-- Runs the task until it waits. -/
def poll (task : TypingTask) (shared : Shared) (clock : Nat) :
    TypingTask × Shared × List LogRecord :=
  match task with
  | .created settings =>
    let meter := SpeedMeter.start settings.sampleSeconds settings.samplePeriods
    (start meter clock, shared,
      [.info s!"WPM task started, {meter.periodMs} ms periods"])
  | .waiting meter next =>
    let (task, shared) := catchUp (dueTicks meter next clock) meter next shared
    (task, shared, [])
  | .halted => (.halted, shared, [])

end TypingTask

end StatusPanel
