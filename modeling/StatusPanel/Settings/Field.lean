import StatusPanel.Settings.Value

/-!
# Setting fields

Every setting is a field: it belongs to a section, has one or more names there, and has values of
one kind. The settings are a record of all fields: reading a field after writing one gives the
written value or, for another field, the old one.

## Main definitions

* `Section`: the sections of a settings text
* `Field`: the fields, with `Field.owner`, `Field.names` and `Field.kind`
* `Field.named?`: the field a key names in a section
* `Settings.get`, `Settings.set`: the value of a field, and its replacement

## Main results

* `Settings.get_set_self`, `Settings.get_set_of_ne`: reading after writing
* `Settings.foldl_set_get`, `Settings.ext_get`: the fields determine the settings
-/

namespace StatusPanel

/-- The sections of a settings text; the root comes before the first header. -/
inductive Section
  | root
  | display
  | timing
  | typing
  | lighting
  deriving DecidableEq, Repr

/-- The section a header names. -/
def Section.named? (name : List Char) : Option Section :=
  if name = "display".toList then some .display
  else if name = "timing".toList then some .timing
  else if name = "wpm".toList then some .typing
  else if name = "rgb".toList then some .lighting
  else none

/-- The fields of the settings. -/
inductive Field
  | ledPin
  | address
  | frequency
  | sdaPin
  | sclPin
  | width
  | height
  | sleepTimeout
  | checkInterval
  | barInterval
  | scaleMax
  | sampleSeconds
  | samplePeriods
  | enabled
  | effect
  | hue
  | sat
  | val
  | speed
  deriving DecidableEq, Repr

namespace Field

/-- All fields. -/
def all : List Field :=
  [.ledPin, .address, .frequency, .sdaPin, .sclPin, .width, .height, .sleepTimeout,
    .checkInterval, .barInterval, .scaleMax, .sampleSeconds, .samplePeriods, .enabled, .effect,
    .hue, .sat, .val, .speed]

theorem mem_all (f : Field) : f ∈ all := by cases f <;> decide

/-- The section a field belongs to. -/
def owner : Field → Section
  | .ledPin => .root
  | .address | .frequency | .sdaPin | .sclPin | .width | .height => .display
  | .sleepTimeout | .checkInterval | .barInterval => .timing
  | .scaleMax | .sampleSeconds | .samplePeriods => .typing
  | .enabled | .effect | .hue | .sat | .val | .speed => .lighting

/-- The names of a field in its section. -/
def names : Field → List String
  | .ledPin => ["led_pin", "ws2812_pin"]
  | .address => ["i2c_address", "address"]
  | .frequency => ["i2c_frequency", "frequency"]
  | .sdaPin => ["sda_pin"]
  | .sclPin => ["scl_pin"]
  | .width => ["width"]
  | .height => ["height"]
  | .sleepTimeout => ["sleep_timeout_ms", "timeout_ms"]
  | .checkInterval => ["sleep_check_interval_ms", "check_interval_ms"]
  | .barInterval => ["bar_redraw_interval_ms"]
  | .scaleMax => ["scale_max"]
  | .sampleSeconds => ["sample_seconds"]
  | .samplePeriods => ["sample_periods"]
  | .enabled => ["enabled"]
  | .effect => ["effect", "mode"]
  | .hue => ["hue"]
  | .sat => ["sat", "saturation"]
  | .val => ["val", "value"]
  | .speed => ["speed"]

/-- The kind of a field's values. -/
def kind : Field → ValueKind
  | .ledPin | .sdaPin | .sclPin => .pin
  | .address => .busAddress
  | .frequency | .sleepTimeout => .word
  | .width | .height => .half
  | .checkInterval | .barInterval => .positiveWord
  | .scaleMax | .sampleSeconds => .positiveHalf
  | .samplePeriods => .positiveByte
  | .enabled => .flag
  | .effect | .hue | .sat | .val | .speed => .byte

/-- Whether a key names a field. -/
def hasName (f : Field) (key : List Char) : Bool :=
  f.names.any fun name => name.toList == key

/-- The field a key names in a section. -/
def named? (owner : Section) (key : List Char) : Option Field :=
  all.find? fun f => f.owner == owner && f.hasName key

end Field

namespace Settings

/-- The value of a field. -/
def get (s : Settings) : (f : Field) → f.kind.Value
  | .ledPin => s.ledPin
  | .address => s.display.address
  | .frequency => s.display.frequency
  | .sdaPin => s.display.sdaPin
  | .sclPin => s.display.sclPin
  | .width => s.display.width
  | .height => s.display.height
  | .sleepTimeout => s.timing.sleepTimeout
  | .checkInterval => s.timing.checkInterval
  | .barInterval => s.timing.barInterval
  | .scaleMax => s.typing.scaleMax
  | .sampleSeconds => s.typing.sampleSeconds
  | .samplePeriods => s.typing.samplePeriods
  | .enabled => s.lighting.enabled
  | .effect => s.lighting.effect
  | .hue => s.lighting.hue
  | .sat => s.lighting.sat
  | .val => s.lighting.val
  | .speed => s.lighting.speed

/-- The settings with another value of a field. -/
def set (s : Settings) : (f : Field) → f.kind.Value → Settings
  | .ledPin, v => { s with ledPin := v }
  | .address, v => { s with display.address := v }
  | .frequency, v => { s with display.frequency := v }
  | .sdaPin, v => { s with display.sdaPin := v }
  | .sclPin, v => { s with display.sclPin := v }
  | .width, v => { s with display.width := v }
  | .height, v => { s with display.height := v }
  | .sleepTimeout, v => { s with timing.sleepTimeout := v }
  | .checkInterval, v => { s with timing.checkInterval := v }
  | .barInterval, v => { s with timing.barInterval := v }
  | .scaleMax, v => { s with typing.scaleMax := v }
  | .sampleSeconds, v => { s with typing.sampleSeconds := v }
  | .samplePeriods, v => { s with typing.samplePeriods := v }
  | .enabled, v => { s with lighting.enabled := v }
  | .effect, v => { s with lighting.effect := v }
  | .hue, v => { s with lighting.hue := v }
  | .sat, v => { s with lighting.sat := v }
  | .val, v => { s with lighting.val := v }
  | .speed, v => { s with lighting.speed := v }

@[simp] theorem get_set_self (s : Settings) (f : Field) (v : f.kind.Value) :
    (s.set f v).get f = v := by
  cases f <;> rfl

theorem get_set_of_ne (s : Settings) {f g : Field} (v : f.kind.Value) (h : g ≠ f) :
    (s.set f v).get g = s.get g := by
  cases f <;> cases g <;> first | rfl | exact absurd rfl h

/-- Settings of which every field was replaced are those that the fields were taken from. -/
theorem foldl_set_get (s t : Settings) :
    Field.all.foldl (fun r f => r.set f (s.get f)) t = s := by
  simp only [Field.all, List.foldl_cons, List.foldl_nil, set, get]

/-- Settings that agree on every field are the same. -/
theorem ext_get {s t : Settings} (h : ∀ f, s.get f = t.get f) : s = t := by
  have hsame (r : Settings) (f : Field) : r.set f (s.get f) = r.set f (t.get f) := by rw [h f]
  calc
    s = Field.all.foldl (fun r f => r.set f (s.get f)) .standard := (foldl_set_get s _).symm
    _ = Field.all.foldl (fun r f => r.set f (t.get f)) .standard := by simp only [hsame]
    _ = t := foldl_set_get t _

end Settings

end StatusPanel
