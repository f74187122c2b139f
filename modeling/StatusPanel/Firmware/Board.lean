import StatusPanel.Firmware.Record
import StatusPanel.Settings.Basic

/-!
# The board

The wiring of the board. Its pins and its panel are fixed, and settings that say otherwise are
ignored with a warning.

## Main definitions

* `Board.sdaPin`, `Board.sclPin`, `Board.ledPin`, `Board.ledCount`: the wiring
* `Board.checkSettings`: the warnings about settings
-/

namespace StatusPanel.Board

/-- The pin of the bus's data line. -/
def sdaPin : UInt8 := 16

/-- The pin of the bus's clock line. -/
def sclPin : UInt8 := 17

/-- The pin of the LED chain. -/
def ledPin : UInt8 := 15

/-- The number of LEDs in the chain. -/
def ledCount : Nat := 50

/-- The warning about the pins of the bus. -/
def busWarning (d : DisplaySettings) : List LogRecord :=
  if d.sdaPin ≠ sdaPin ∨ d.sclPin ≠ sclPin then
    [.warning
      (s!"Configured I2C pins SDA {d.sdaPin} / SCL {d.sclPin} ignored, " ++
        s!"board uses GP{sdaPin} / GP{sclPin}")]
  else []

/-- The warning about the pin of the LED chain. -/
def ledWarning (pin : UInt8) : List LogRecord :=
  if pin ≠ ledPin then
    [.warning s!"Configured LED pin {pin} ignored, board uses GP{ledPin}"]
  else []

/-- The warning about the size of the panel. -/
def sizeWarning (d : DisplaySettings) : List LogRecord :=
  if d.width ≠ 128 ∨ d.height ≠ 64 then
    [.warning s!"Configured panel size {d.width}x{d.height} ignored, layout is fixed at 128x64"]
  else []

/-- The warnings about settings that the board cannot follow. -/
def checkSettings (s : Settings) : List LogRecord :=
  busWarning s.display ++ ledWarning s.ledPin ++ sizeWarning s.display

end StatusPanel.Board
