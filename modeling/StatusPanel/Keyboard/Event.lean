import StatusPanel.Keyboard.Layers
import StatusPanel.Keyboard.Locks
import StatusPanel.Keyboard.Lighting

/-!
# Keyboard events

What the keyboard tells its status panel: keys, changes of reported state, and the power
lifecycle of the host.

## Main definitions

* `Event`: the events
* `Event.isActivity`: whether an event is the work of the user
-/

namespace StatusPanel

/-- Something that happened on the keyboard or its host. -/
inductive Event
  /-- A key went down or came up. -/
  | key (pressed : Bool)
  /-- The active layers are now these. -/
  | layers (mask : LayerMask)
  /-- The default layers are now these. -/
  | defaultLayers (mask : LayerMask)
  /-- The lock keys are now so. -/
  | locks (locks : Locks)
  /-- The lighting is now so. -/
  | lighting (lighting : Lighting)
  /-- The host suspends. -/
  | suspend
  /-- The host wakes. -/
  | wake
  /-- Power is about to go. -/
  | shutdown
  deriving DecidableEq, Repr

/-- Whether an event is the work of the user; the lifecycle of the host is not. -/
def Event.isActivity : Event → Bool
  | .key _ | .layers _ | .defaultLayers _ | .locks _ | .lighting _ => true
  | .suspend | .wake | .shutdown => false

end StatusPanel
