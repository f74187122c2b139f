import StatusPanel.Firmware.Machine
import StatusPanel.Settings.Reader

/-!
# Booting the firmware

At boot the embedded settings are read, the panel is brought up, and the tasks are created. A panel
that cannot be reached is noted, and the firmware goes on without it.

## Main definitions

* `embeddedSettings`: the settings text in the firmware
* `Boot`: a booted firmware
* `Machine.boot`: the boot
-/

namespace StatusPanel

/-- The settings text in the firmware. -/
def embeddedSettings : String :=
  "# keypanel status display configuration
#
# Every key is optional; missing keys keep their defaults.

# WS2812 data line
led_pin = \"gpio15\"

[display]
# SH1106 128x64 OLED on I2C0
i2c_address = 0x3C
i2c_frequency = 400000
sda_pin = \"gpio16\"
scl_pin = \"gpio17\"
width = 128
height = 64

[timing]
# Power the display off after this much inactivity
sleep_timeout_ms = 3000
sleep_check_interval_ms = 1000
# Typing speed and lighting bar refresh
bar_redraw_interval_ms = 250

[wpm]
# Typing speed drawn as a full-width bar
scale_max = 150
sample_seconds = 4
sample_periods = 32

[rgb]
# Lighting shown until its engine reports in
enabled = true
effect = 50          # river flow
hue = 132
sat = 213
val = 150
speed = 127
"

/-- A byte in hexadecimal, behind `0x`. -/
def hexText (b : UInt8) : String :=
  "0x" ++ String.ofList (Nat.toDigits 16 b.toNat)

/-- The settings of a text with the record of reading it; the defaults if it is refused. -/
def loadSettings (text : String) : Settings × LogRecord :=
  match Settings.read text with
  | .ok settings => (settings, .info "Configuration loaded")
  | .error e =>
    (.standard, .warning s!"Invalid keyboard.toml ({e.describe}), using defaults")

/-- The record of bringing up a panel at an address. -/
def panelRecord (address : UInt8) : Reply → LogRecord
  | .ok () => .info s!"Display initialized at {hexText address}"
  | .error fault => .warning s!"Display init failed: {fault.describe}, continuing without panel"

/-- A firmware that was booted. -/
structure Boot where
  machine : Machine
  /-- The bus clock asked for, in hertz. -/
  frequency : UInt32

/-- Boots the firmware with a settings text. The layer engine reports its default layer first. -/
def Machine.boot (text : String) (bus : Bus) (clock : Nat) : Boot :=
  let (settings, loaded) := loadSettings text
  let (panel, reply) := Panel.bringUp { bus, address := settings.display.address }
  let machine := (Machine.assemble panel settings clock).note
    ([.info "keypanel firmware starting...", .info "Peripherals initialized", loaded] ++
      Board.checkSettings settings ++ [panelRecord settings.display.address reply])
  let machine := machine.publish (.defaultLayers (.only .dvorak))
  ⟨machine.note [.info "All tasks spawned, firmware running"], settings.display.frequency⟩

end StatusPanel
