import StatusPanel.Keyboard.Lighting

/-!
# Panel settings

The settings of the status panel and what they are when nothing else is said.

## Main definitions

* `DisplaySettings`, `TimingSettings`, `TypingSettings`: the settings by subject
* `Settings`: all settings, with their defaults
* `SettingsError`: why a settings text is refused
-/

namespace StatusPanel

/-- How the display is wired, and its size. -/
structure DisplaySettings where
  /-- The 7-bit bus address of the display. -/
  address : UInt8 := 0x3C
  /-- The bus clock in hertz. -/
  frequency : UInt32 := 400000
  /-- The pin of the data line. -/
  sdaPin : UInt8 := 16
  /-- The pin of the clock line. -/
  sclPin : UInt8 := 17
  /-- The width in pixels. -/
  width : UInt16 := 128
  /-- The height in pixels. -/
  height : UInt16 := 64
  deriving DecidableEq, Repr

/-- The times of the display's chores, in milliseconds. -/
structure TimingSettings where
  /-- The idle time after which the display sleeps. -/
  sleepTimeout : UInt32 := 3000
  /-- The time between two idle checks. -/
  checkInterval : UInt32 := 1000
  /-- The time between two redraws of the bars. -/
  barInterval : UInt32 := 250
  deriving DecidableEq, Repr

/-- How the typing speed is measured and drawn. -/
structure TypingSettings where
  /-- The speed drawn as a full bar. -/
  scaleMax : UInt16 := 150
  /-- The length of the window in seconds. -/
  sampleSeconds : UInt16 := 4
  /-- The number of periods of the window. -/
  samplePeriods : UInt8 := 32
  deriving DecidableEq, Repr

/-- The settings of a panel. -/
structure Settings where
  display : DisplaySettings := {}
  timing : TimingSettings := {}
  typing : TypingSettings := {}
  /-- The lighting shown until its engine reports in. -/
  lighting : Lighting := .initial
  /-- The pin of the LED chain. -/
  ledPin : UInt8 := 15
  deriving DecidableEq, Repr

/-- The settings when nothing else is said. -/
def Settings.standard : Settings := {}

/-- Why a settings text is refused. -/
inductive SettingsError
  /-- A section header is malformed or names no section. -/
  | badSection
  /-- A value is of the wrong form or out of range. -/
  | badValue
  /-- A pin is of the wrong form or out of range. -/
  | badPin
  deriving DecidableEq, Repr

/-- The name an error has in the log. -/
def SettingsError.describe : SettingsError → String
  | .badSection => "InvalidSection"
  | .badValue => "InvalidValue"
  | .badPin => "InvalidPin"

end StatusPanel
