import StatusPanel.Panel.Bus
import StatusPanel.Panel.Raster

/-!
# The OLED panel

A panel of 128 by 64 pixels behind a bus. Strokes go to a canvas, and a flush sends the pages that
changed. The panel's memory has 132 columns, of which 2 to 129 are visible.

## Main definitions

* `Panel`: the panel as its driver knows it
* `Panel.bringUp`: configures the panel, clears it and switches it on
* `Panel.draw`, `Panel.power`, `Panel.flush`: the calls of a drawing surface

## Main results

* `Panel.draw_of_not_ready` and its neighbours: a panel that was not configured refuses every call
* `Panel.canvas_sendAll`: sending leaves the picture alone
-/

namespace StatusPanel

/-- A panel behind a bus. -/
structure Panel where
  bus : Bus
  address : UInt8
  /-- The picture to be shown. -/
  canvas : Canvas := .blank
  /-- Whether the panel was last switched on. -/
  powered : Bool := false
  /-- Whether the panel was configured. -/
  ready : Bool := false

namespace Panel

/-- The command that switches the panel off. -/
def displayOff : UInt8 := 0xAE

/-- The command that switches the panel on. -/
def displayOn : UInt8 := 0xAF

/-- The commands that configure the panel, which is off meanwhile. -/
def configuration : List UInt8 :=
  [displayOff,
    -- clock, 64 lines, no offset, first line
    0xD5, 0x80, 0xA8, 0x3F, 0xD3, 0x00, 0x40,
    -- charge pump on
    0x8D, 0x14,
    -- both axes flipped, alternative row pins
    0xA1, 0xC8, 0xDA, 0x12,
    -- contrast, precharge, voltage level
    0x81, 0xCF, 0xD9, 0xF1, 0xDB, 0x40,
    -- lit pixels are bright
    0xA6]

/-- Sends bytes to the panel. -/
def send (p : Panel) (bytes : List UInt8) : Panel × Reply :=
  match p.bus.write ⟨p.address, bytes⟩ with
  | (bus, true) => ({ p with bus }, .ok ())
  | (bus, false) => ({ p with bus }, .error .communication)

/-- Sends byte strings one after another, up to the first refusal. -/
def sendAll (p : Panel) : List (List UInt8) → Panel × Reply
  | [] => (p, .ok ())
  | bytes :: rest => andThen (p.send bytes) fun p => p.sendAll rest

/-- The bytes of a command. -/
def command (c : UInt8) : List UInt8 := [0x00, c]

/-- The writes that send a page: its address, its first visible column in two halves, and its
bytes. -/
def pageWrites (page : Fin 8) (bytes : List UInt8) : List (List UInt8) :=
  [command (0xB0 ||| UInt8.ofNat page.val), command 0x02, command 0x10, 0x40 :: bytes]

/-- Sends a page if it is to be sent, after which it is not. -/
def flushPage (p : Panel) (page : Fin 8) : Panel × Reply :=
  if p.canvas.isDirty page then
    andThen (p.sendAll (pageWrites page (p.canvas.page page))) fun p =>
      ({ p with canvas := p.canvas.markClean page }, .ok ())
  else (p, .ok ())

/-- Sends pages in order, up to the first refusal. -/
def flushPages (p : Panel) : List (Fin 8) → Panel × Reply
  | [] => (p, .ok ())
  | page :: rest => andThen (p.flushPage page) fun p => p.flushPages rest

/-- Does nothing on a panel that was not configured. -/
def whenReady (p : Panel) (act : Panel → Panel × Reply) : Panel × Reply :=
  if p.ready then act p else (p, .error .notInitialized)

/-- Sends the pages that changed, from the top. -/
def flush (p : Panel) : Panel × Reply :=
  p.whenReady fun p => p.flushPages (List.finRange 8)

/-- Draws a stroke on the canvas, if it lies on the panel. -/
def draw (p : Panel) (stroke : Stroke Bitmap) : Panel × Reply :=
  p.whenReady fun p =>
    if stroke.fits then ({ p with canvas := p.canvas.drawDots stroke.dots }, .ok ())
    else (p, .error .invalidCoordinates)

/-- Sends a power command and notes it once it is accepted. -/
def sendPower (p : Panel) (on : Bool) : Panel × Reply :=
  andThen (p.send (command (if on then displayOn else displayOff))) fun p =>
    ({ p with powered := on }, .ok ())

/-- Switches the panel, unless it is so already. -/
def power (p : Panel) (on : Bool) : Panel × Reply :=
  p.whenReady fun p => if on = p.powered then (p, .ok ()) else p.sendPower on

/-- Configures the panel, clears it and switches it on. -/
def bringUp (p : Panel) : Panel × Reply :=
  andThen (p.sendAll (configuration.map command)) fun p =>
    andThen { p with ready := true, canvas := .blank }.flush fun p => p.sendPower true

instance : Surface Panel Bitmap := ⟨draw, power, flush⟩

/-! ## A panel that was not configured -/

theorem draw_of_not_ready {p : Panel} (h : p.ready = false) (stroke : Stroke Bitmap) :
    p.draw stroke = (p, .error .notInitialized) := by
  simp [draw, whenReady, h]

theorem power_of_not_ready {p : Panel} (h : p.ready = false) (on : Bool) :
    p.power on = (p, .error .notInitialized) := by
  simp [power, whenReady, h]

theorem flush_of_not_ready {p : Panel} (h : p.ready = false) :
    p.flush = (p, .error .notInitialized) := by
  simp [flush, whenReady, h]

/-! ## What sending leaves alone -/

@[simp] theorem canvas_send (p : Panel) (bytes : List UInt8) :
    (p.send bytes).1.canvas = p.canvas := by
  unfold send
  split <;> rfl

@[simp] theorem powered_send (p : Panel) (bytes : List UInt8) :
    (p.send bytes).1.powered = p.powered := by
  unfold send
  split <;> rfl

@[simp] theorem ready_send (p : Panel) (bytes : List UInt8) :
    (p.send bytes).1.ready = p.ready := by
  unfold send
  split <;> rfl

/-- Sending all of several strings is refused when one of them is, and otherwise sends each. -/
theorem sendAll_append (p : Panel) (xs ys : List (List UInt8)) :
    p.sendAll (xs ++ ys) = andThen (p.sendAll xs) fun p => p.sendAll ys := by
  induction xs generalizing p with
  | nil => rfl
  | cons x xs ih => simp [sendAll, andThen_assoc, ih]

@[simp] theorem canvas_sendAll (p : Panel) (xs : List (List UInt8)) :
    (p.sendAll xs).1.canvas = p.canvas := by
  induction xs generalizing p with
  | nil => rfl
  | cons x xs ih => rw [sendAll, view_andThen canvas _ ih, canvas_send]

end Panel

end StatusPanel
