import StatusPanel.Keyboard.Event

/-!
# Keyboard status

The last known state of the keyboard: what its events reported last, and the typing speed.

## Main definitions

* `Status`: the reported state
* `Status.apply`: the state after one more event

## Main results

* `Status.apply_apply_self`: an event repeated right away changes nothing
-/

namespace StatusPanel

/-- The last known state of the keyboard. -/
structure Status where
  /-- The active layers. -/
  layers : LayerMask
  /-- The default layers. -/
  defaultLayers : LayerMask
  /-- The lock keys. -/
  locks : Locks
  /-- The typing speed, in words per minute. -/
  wpm : UInt16
  /-- The key lighting. -/
  lighting : Lighting
  deriving DecidableEq, Repr

namespace Status

/-- The state at boot under a given lighting. -/
def boot (lighting : Lighting) : Status where
  layers := .empty
  defaultLayers := .only .dvorak
  locks := .off
  wpm := 0
  lighting := lighting

/-- The state after an event: the event's payload replaces the field it reports. -/
def apply (status : Status) : Event → Status
  | .layers mask => { status with layers := mask }
  | .defaultLayers mask => { status with defaultLayers := mask }
  | .locks locks => { status with locks := locks }
  | .lighting lighting => { status with lighting := lighting }
  | .key _ | .suspend | .wake | .shutdown => status

/-- No event changes the typing speed. -/
@[simp] theorem wpm_apply (status : Status) (event : Event) :
    (status.apply event).wpm = status.wpm := by
  cases event <;> rfl

/-- An event repeated right away changes nothing. -/
@[simp] theorem apply_apply_self (status : Status) (event : Event) :
    (status.apply event).apply event = status.apply event := by
  cases event <;> rfl

end Status

end StatusPanel
