import StatusPanel.Agenda.Basic
import StatusPanel.Agenda.Drain
import StatusPanel.Asset.Basic
import StatusPanel.Asset.Bitmap
import StatusPanel.Asset.Builtin
import StatusPanel.Asset.Gallery
import StatusPanel.Build.Checks
import StatusPanel.Build.Document.Basic
import StatusPanel.Build.Document.Key
import StatusPanel.Build.Document.Quoted
import StatusPanel.Build.Document.Reader
import StatusPanel.Build.Notice
import StatusPanel.Build.Script
import StatusPanel.Byte
import StatusPanel.Controller
import StatusPanel.Firmware.Board
import StatusPanel.Firmware.Boot
import StatusPanel.Firmware.Clock
import StatusPanel.Firmware.DisplayTask
import StatusPanel.Firmware.IndicatorTask
import StatusPanel.Firmware.Machine
import StatusPanel.Firmware.Mailbox
import StatusPanel.Firmware.Record
import StatusPanel.Firmware.Shared
import StatusPanel.Firmware.TypingTask
import StatusPanel.Keyboard.Event
import StatusPanel.Keyboard.Layers
import StatusPanel.Keyboard.Lighting
import StatusPanel.Keyboard.Locks
import StatusPanel.Keyboard.Status
import StatusPanel.Keyboard.Typing
import StatusPanel.Panel.Basic
import StatusPanel.Panel.Bus
import StatusPanel.Panel.Canvas
import StatusPanel.Panel.Raster
import StatusPanel.Power
import StatusPanel.Proofs.Agenda.Calendar
import StatusPanel.Proofs.Agenda.Deadline
import StatusPanel.Proofs.Agenda.Drain
import StatusPanel.Proofs.Agenda.Order
import StatusPanel.Proofs.Agenda.Shift
import StatusPanel.Proofs.Agenda.Tokens
import StatusPanel.Proofs.Asset.Encoding
import StatusPanel.Proofs.Build.Checked
import StatusPanel.Proofs.Build.Framing
import StatusPanel.Proofs.Build.PlainText
import StatusPanel.Proofs.Build.PlainValue
import StatusPanel.Proofs.Controller.Answers
import StatusPanel.Proofs.Controller.Console
import StatusPanel.Proofs.Controller.Incremental
import StatusPanel.Proofs.Controller.PowerCommands
import StatusPanel.Proofs.Controller.Progress
import StatusPanel.Proofs.Controller.Rhythm
import StatusPanel.Proofs.Controller.Rollover
import StatusPanel.Proofs.Controller.Run
import StatusPanel.Proofs.Controller.Shutdown
import StatusPanel.Proofs.Controller.Sleep
import StatusPanel.Proofs.Controller.Switching
import StatusPanel.Proofs.Controller.Timetable
import StatusPanel.Proofs.Firmware.Abreast
import StatusPanel.Proofs.Firmware.CatchUp
import StatusPanel.Proofs.Firmware.Iterations
import StatusPanel.Proofs.Firmware.Journal
import StatusPanel.Proofs.Firmware.Shutdown
import StatusPanel.Proofs.Firmware.Steps
import StatusPanel.Proofs.Keyboard.SlidingWindow
import StatusPanel.Proofs.Panel.Calls
import StatusPanel.Proofs.Panel.Drawing
import StatusPanel.Proofs.Panel.Flush
import StatusPanel.Proofs.Panel.Memory
import StatusPanel.Proofs.Panel.Picture
import StatusPanel.Proofs.Panel.PowerFlag
import StatusPanel.Proofs.Panel.Steady
import StatusPanel.Proofs.Screen.BarDraws
import StatusPanel.Proofs.Screen.BarInk
import StatusPanel.Proofs.Screen.BarLength
import StatusPanel.Proofs.Screen.Commute
import StatusPanel.Proofs.Screen.Ink
import StatusPanel.Proofs.Screen.Looks
import StatusPanel.Proofs.Screen.Places
import StatusPanel.Proofs.Screen.Redraw
import StatusPanel.Proofs.Screen.RememberedLighting
import StatusPanel.Proofs.Screen.Segments
import StatusPanel.Proofs.Screen.SharedPixels
import StatusPanel.Proofs.Screen.Shows
import StatusPanel.Proofs.Screen.Slots
import StatusPanel.Proofs.Settings.Acceptance
import StatusPanel.Proofs.Settings.Assignments
import StatusPanel.Proofs.Settings.Keys
import StatusPanel.Proofs.Settings.Numbers
import StatusPanel.Proofs.Settings.Range
import StatusPanel.Proofs.Settings.Rendering
import StatusPanel.Proofs.Settings.Retouching
import StatusPanel.Proofs.Settings.Spelling
import StatusPanel.Proofs.Settings.Unclamped
import StatusPanel.Proofs.Settings.Values
import StatusPanel.Proofs.Surface.Driven
import StatusPanel.Proofs.Surface.Faulty
import StatusPanel.Proofs.Surface.Trace
import StatusPanel.Proofs.Text.Names
import StatusPanel.Proofs.Text.Positional
import StatusPanel.Proofs.Text.Written
import StatusPanel.Proofs.Word
import StatusPanel.Screen.Area
import StatusPanel.Screen.Bar
import StatusPanel.Screen.Drawing
import StatusPanel.Screen.Layout
import StatusPanel.Screen.Painter
import StatusPanel.Settings.Basic
import StatusPanel.Settings.Field
import StatusPanel.Settings.Reader
import StatusPanel.Settings.Value
import StatusPanel.Surface.Basic
import StatusPanel.Surface.Color
import StatusPanel.Surface.Recorder
import StatusPanel.Text.Blank
import StatusPanel.Text.Cut
import StatusPanel.Text.Lines
import StatusPanel.Text.Name
import StatusPanel.Text.Numeral
