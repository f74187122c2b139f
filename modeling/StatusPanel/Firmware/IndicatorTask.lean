import StatusPanel.Firmware.Board
import StatusPanel.Firmware.Shared
import StatusPanel.Surface.Color

/-!
# The indicator task

The owner of the LED chain: on request it sends one frame that makes every LED dark.

## Main definitions

* `Frame`: the colours sent down the chain
* `IndicatorTask.poll`: runs the task until it waits
-/

namespace StatusPanel

/-- The colours of the LEDs of a chain. -/
abbrev Frame := List Color

/-- The frame that makes every LED of the board dark. -/
def darkFrame : Frame := List.replicate Board.ledCount .black

/-- Whether a frame makes every LED dark. -/
def Frame.isDark (frame : Frame) : Bool := frame.all (· == .black)

@[simp] theorem Frame.isDark_darkFrame : Frame.isDark darkFrame = true := by decide

/-- The indicator task. -/
structure IndicatorTask where
  /-- Whether the task ran before. -/
  started : Bool := false

namespace IndicatorTask

/-- Runs the task until it waits: a request is served with one dark frame. -/
def poll (task : IndicatorTask) (shared : Shared) :
    IndicatorTask × Shared × List Frame × List LogRecord :=
  let greeting := if task.started then [] else [LogRecord.info "Indicator task started"]
  if shared.darkWanted then
    (⟨true⟩, { shared with darkWanted := false }, [darkFrame],
      greeting ++ [.info "RGB matrix blanked"])
  else (⟨true⟩, shared, [], greeting)

end IndicatorTask

end StatusPanel
