import StatusPanel.Text.Lines

/-!
# Framed notices

The complaints of a failed build, in a frame. Text in a frame is padded with blanks up to a number
of characters; longer text breaks out of the frame.

## Main definitions

* `Notice.padTo`: text of at least a number of characters
* `Notice.errorLines?`: the lines of an error message, cut to the width of the frame
* `Notice.missing`, `Notice.unreadable`, `Notice.malformed?`, `Notice.invalid`: the notices
-/

namespace StatusPanel.Notice

open Text

/-- A text padded with blanks at its end, up to a number of characters. -/
def padTo (width : Nat) (s : List Char) : List Char :=
  s ++ List.replicate (width - s.length) ' '

/-- The number of bytes of a text. -/
def byteLength (s : List Char) : Nat := s.foldr (fun c size => c.utf8Size + size) 0

/-- The start of a text of exactly so many bytes; `none` if a character straddles the cut or the
text is shorter. -/
def takeBytes? : Nat → List Char → Option (List Char)
  | 0, _ => some []
  | _ + 1, [] => none
  | n + 1, c :: rest =>
    if c.utf8Size ≤ n + 1 then (takeBytes? (n + 1 - c.utf8Size) rest).map (c :: ·) else none

/-- The width of a line of an error message, in bytes before it is cut and in characters after it
is padded. -/
def lineWidth : Nat := 64

/-- A line of an error message, cut to the width if it has more bytes than that. A cut inside a
character fails. -/
def cutLine? (line : List Char) : Option (List Char) :=
  if lineWidth < byteLength line then
    (takeBytes? (lineWidth - 3) line).map (· ++ "...".toList)
  else some line

/-- A line of an error message between the borders of the frame. -/
def errorLine? (line : List Char) : Option (List Char) :=
  (cutLine? line).map fun text => "║  ".toList ++ padTo lineWidth text ++ " ║".toList

/-- The lines of an error message between the borders of the frame, if no cut fails. -/
def errorLines? (message : String) : Option String :=
  ((lines message.toList).mapM errorLine?).map fun framed =>
    String.intercalate "\n" (framed.map String.ofList)

/-- A text padded with blanks. -/
def pad (width : Nat) (s : String) : String := String.ofList (padTo width s.toList)

/-- A run of horizontal line. -/
def rule : String := String.ofList (List.replicate 66 '═')

/-- A notice of lines between the top and the bottom of the frame. -/
def frame (content : List String) : String :=
  "\n" ++ String.intercalate "\n" (["╔" ++ rule ++ "╗"] ++ content ++ ["╚" ++ rule ++ "╝"]) ++ "\n"

/-- A line between the borders of the frame. -/
def line (text : String) : String := "║  " ++ pad 64 text ++ "║"

/-- The line between a notice's title and its text. -/
def divider : String := "╠" ++ rule ++ "╣"

/-- The notice that there is no settings file. -/
def missing : String :=
  frame
    [line "ERROR: keyboard.toml not found!", line "",
      line "The firmware embeds keyboard.toml from the keypanel-firmware",
      line "directory. Create one (an empty file selects the defaults)."]

/-- The notice that the settings file cannot be read. -/
def unreadable (reason : String) : String :=
  frame
    [line "ERROR: Failed to read keyboard.toml", line "",
      "║  Error: " ++ pad 56 reason ++ " ║"]

/-- The notice that the settings file is malformed, if no cut of the message fails. -/
def malformed? (message : String) : Option String :=
  (errorLines? message).map fun text =>
    frame
      [line "ERROR: Invalid TOML syntax in keyboard.toml", divider, line "", text, line ""]

/-- The notice of complaints about the settings. -/
def invalid (complaints : List String) : String :=
  frame
    (line "ERROR: Invalid values in keyboard.toml" :: divider ::
      complaints.map fun c => "║  • " ++ pad 62 c ++ " ║")

end StatusPanel.Notice
