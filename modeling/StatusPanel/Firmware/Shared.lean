import StatusPanel.Firmware.Mailbox
import StatusPanel.Firmware.Record
import StatusPanel.Keyboard.Status

/-!
# What the tasks share

The keyboard's state, the events for the display, the count of keystrokes, and the request for dark
key LEDs. An event is published by bringing the state up to date first and announcing it then, so
whoever handles an event finds a state at least as new.

## Main definitions

* `Shared`: the shared state
* `Shared.publish`: publishes an event
* `Shared.takeKeystrokes`: takes the count of keystrokes

## Main results

* `Shared.status_publish`: the state is up to date even if the announcement is lost
* `Shared.messages_publish`: the announcement goes behind those that wait, unless there is no room
-/

namespace StatusPanel

/-- The number of events that can wait for the display. -/
def eventCapacity : Nat := 16

/-- What the tasks share. -/
structure Shared where
  /-- The last known state of the keyboard. -/
  status : Status
  /-- The events that wait for the display. -/
  events : Mailbox eventCapacity Event := .empty
  /-- The keystrokes since they were last taken. -/
  keystrokes : UInt32 := 0
  /-- Whether dark key LEDs are asked for. -/
  darkWanted : Bool := false

namespace Shared

/-- The shared state at boot. -/
def start (lighting : Lighting) : Shared := { status := .boot lighting }

/-- Counts a keystroke; the count stays at its greatest value. -/
def countKeystroke (s : Shared) : Shared :=
  if s.keystrokes.toNat + 1 < UInt32.size then { s with keystrokes := s.keystrokes + 1 } else s

/-- Takes the count of keystrokes. -/
def takeKeystrokes (s : Shared) : Shared × UInt32 :=
  ({ s with keystrokes := 0 }, s.keystrokes)

/-- Whether an event counts as a keystroke: the release of a key does. -/
def isKeystroke (event : Event) : Bool := event == .key false

/-- Publishes an event: the status follows it, a keystroke is counted, and the event waits for the
display. For want of room it is dropped with a warning. -/
def publish (s : Shared) (event : Event) : Shared × List LogRecord :=
  let s := { s with status := s.status.apply event }
  let s := if isKeystroke event then s.countKeystroke else s
  let (events, accepted) := s.events.send event
  ({ s with events },
    if accepted then []
    else [.warning ("Panel event queue full, dropped " ++ event.describe)])

/-- Publishing brings the status up to date, whether or not the event finds room. -/
@[simp] theorem status_publish (s : Shared) (event : Event) :
    (s.publish event).1.status = s.status.apply event := by
  unfold publish countKeystroke
  by_cases hk : isKeystroke event <;> simp only [hk, if_true, if_false, Bool.false_eq_true]
  split <;> rfl

/-- Publishing puts the event behind those that wait, unless there is no room. -/
theorem messages_publish (s : Shared) (event : Event) :
    (s.publish event).1.events.messages =
      if s.events.isFull then s.events.messages else s.events.messages ++ [event] := by
  rw [← Mailbox.messages_send]
  unfold publish countKeystroke
  by_cases hk : isKeystroke event <;> simp only [hk, if_true, if_false, Bool.false_eq_true]
  split <;> rfl

@[simp] theorem keystrokes_takeKeystrokes (s : Shared) :
    s.takeKeystrokes.1.keystrokes = 0 := rfl

end Shared

end StatusPanel
