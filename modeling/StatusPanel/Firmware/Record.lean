import StatusPanel.Keyboard.Event

/-!
# Log records

The records of the firmware's log, and the text of events in them.

## Main definitions

* `LogRecord`: a text with its level
* `LogRecord.render`: a record as a line
* `Event.describe`: an event as text
-/

namespace StatusPanel

/-- The level of a log record. -/
inductive LogLevel
  | info
  | warning
  deriving DecidableEq, Repr

/-- A log record. -/
structure LogRecord where
  level : LogLevel
  text : String
  deriving DecidableEq, Repr

/-- A record of what goes well. -/
def LogRecord.info (text : String) : LogRecord := ⟨.info, text⟩

/-- A record of what does not. -/
def LogRecord.warning (text : String) : LogRecord := ⟨.warning, text⟩

/-- A record as a line of the log. -/
def LogRecord.render (r : LogRecord) : String :=
  match r.level with
  | .info => "info: " ++ r.text
  | .warning => "warn: " ++ r.text

/-- A truth value as text. -/
def describeBool (b : Bool) : String := if b then "true" else "false"

/-- A record value as text: its name, and its fields in braces. -/
def describeFields (name : String) (fields : List (String × String)) : String :=
  let pairs := fields.map fun (field, value) => field ++ ": " ++ value
  name ++ " \x7b " ++ String.intercalate ", " pairs ++ " \x7d"

/-- A set of layers as text. -/
def LayerMask.describe (mask : LayerMask) : String := s!"LayerState({mask.bits})"

/-- Lock keys as text. -/
def Locks.describe (locks : Locks) : String :=
  describeFields "LockState"
    [("caps", describeBool locks.caps), ("num", describeBool locks.num),
      ("scroll", describeBool locks.scroll)]

/-- Lighting as text. -/
def Lighting.describe (l : Lighting) : String :=
  describeFields "RgbState"
    [("enabled", describeBool l.enabled), ("effect", toString l.effect), ("hue", toString l.hue),
      ("sat", toString l.sat), ("val", toString l.val), ("speed", toString l.speed)]

/-- An event as text. -/
def Event.describe : Event → String
  | .key pressed => describeFields "Key" [("pressed", describeBool pressed)]
  | .layers mask => s!"LayerChange({mask.describe})"
  | .defaultLayers mask => s!"DefaultLayerChange({mask.describe})"
  | .locks state => s!"LockChange({state.describe})"
  | .lighting state => s!"RgbChange({state.describe})"
  | .suspend => "Suspend"
  | .wake => "Wake"
  | .shutdown => "Shutdown"

end StatusPanel
