/-!
# Display power

Whether the panel is on, and when the user was last active. Each step answers how the panel is to
be switched. Times are milliseconds since boot on a 32-bit clock that wraps; the time between two
readings is their difference, which is exact across the wrap.

## Main definitions

* `Power`: the state
* `Switch`: the answer of a step
* `Power.activity`, `Power.idleCheck`, `Power.suspend`, `Power.wake`: the steps

## Main results

* `Power.powered_activity`, `Power.lastActivity_activity`: activity leaves the panel on and is
  dated now
* `Power.lastActivity_suspend`, `Power.lastActivity_wake`: the host's suspend and resume are no
  activity
-/

namespace StatusPanel

/-- How the panel is to be switched. -/
inductive Switch
  | stay
  | powerOn
  | powerOff
  deriving DecidableEq, Repr

/-- The power state of the display. -/
structure Power where
  /-- Whether the panel is on. -/
  powered : Bool
  /-- The time of the last activity. -/
  lastActivity : UInt32
  /-- The idle time after which the panel sleeps. -/
  timeout : UInt32
  /-- The time between two idle checks. -/
  checkInterval : UInt32
  deriving DecidableEq, Repr

namespace Power

/-- The panel on, and the user active now. An interval of zero is taken for one. -/
def start (now timeout checkInterval : UInt32) : Power where
  powered := true
  lastActivity := now
  timeout := timeout
  checkInterval := max checkInterval 1

/-- The time since the last activity. -/
def idleFor (p : Power) (now : UInt32) : UInt32 := now - p.lastActivity

/-- Switches the panel on unless it is. -/
def wake (p : Power) : Power × Switch :=
  if p.powered then (p, .stay) else ({ p with powered := true }, .powerOn)

/-- Switches the panel off unless it is. -/
def suspend (p : Power) : Power × Switch :=
  if p.powered then ({ p with powered := false }, .powerOff) else (p, .stay)

/-- Notes activity, which wakes the panel. -/
def activity (p : Power) (now : UInt32) : Power × Switch :=
  { p with lastActivity := now }.wake

/-- Switches the panel off if it is on and has been idle for longer than the timeout. -/
def idleCheck (p : Power) (now : UInt32) : Power × Switch :=
  if p.powered ∧ p.timeout < p.idleFor now then p.suspend else (p, .stay)

@[simp] theorem powered_wake (p : Power) : p.wake.1.powered = true := by
  unfold wake
  split <;> simp_all

@[simp] theorem powered_suspend (p : Power) : p.suspend.1.powered = false := by
  unfold suspend
  split <;> simp_all

@[simp] theorem powered_activity (p : Power) (now : UInt32) :
    (p.activity now).1.powered = true := by
  simp [activity]

@[simp] theorem lastActivity_wake (p : Power) : p.wake.1.lastActivity = p.lastActivity := by
  unfold wake
  split <;> rfl

@[simp] theorem lastActivity_suspend (p : Power) :
    p.suspend.1.lastActivity = p.lastActivity := by
  unfold suspend
  split <;> rfl

@[simp] theorem lastActivity_activity (p : Power) (now : UInt32) :
    (p.activity now).1.lastActivity = now := by
  simp [activity]

@[simp] theorem lastActivity_idleCheck (p : Power) (now : UInt32) :
    (p.idleCheck now).1.lastActivity = p.lastActivity := by
  unfold idleCheck
  split <;> simp

end Power

end StatusPanel
