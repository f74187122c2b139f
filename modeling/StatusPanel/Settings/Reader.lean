import StatusPanel.Settings.Field
import StatusPanel.Text.Blank
import StatusPanel.Text.Cut
import StatusPanel.Text.Lines

/-!
# Reading settings

A settings text is read line by line. A header opens a section; an assignment of a known key of
the open section sets its field; other assignments, comments and blank lines are passed over. The
first faulty line ends the reading with its error.

## Main definitions

* `SettingsLine`: what a line says
* `SettingsLine.ofText`: the meaning of a line
* `Reading.step`: the effect of one line
* `Settings.read`: the settings of a text
-/

namespace StatusPanel

open Text

/-- What a line of a settings text says. -/
inductive SettingsLine
  /-- Nothing: a blank line, a comment, or no assignment. -/
  | silent
  /-- A section opens; `none` for a malformed header or an unknown name. -/
  | header (opened : Option Section)
  /-- A key is assigned the text of a value; neither is empty. -/
  | assign (key value : List Char)
  deriving DecidableEq, Repr

namespace SettingsLine

/-- The name in a header, blanks around it removed. A comment may follow the closing bracket. -/
def headerName? (line : List Char) : Option (List Char) :=
  match trimEnd (before '#' line) with
  | '[' :: rest => if rest.getLast? = some ']' then some (trim rest.dropLast) else none
  | _ => none

/-- A value without its comment. A hash sign opens a comment unless an odd number of quotes stands
before it; in that case the whole text is the value. -/
def withoutComment (value : List Char) : List Char :=
  if (before '#' value).count '"' % 2 = 0 then trim (before '#' value) else value

/-- What an assignment line says: the first equals sign separates the key from the value. -/
def ofAssignment (line : List Char) : SettingsLine :=
  let key := trim (before '=' line)
  let value := withoutComment (trim (behind '=' line))
  if '=' ∉ line ∨ key = [] ∨ value = [] then .silent else .assign key value

/-- What a line says. -/
def ofText (text : List Char) : SettingsLine :=
  match trim text with
  | [] => .silent
  | '#' :: _ => .silent
  | '[' :: rest => .header ((headerName? ('[' :: rest)).bind Section.named?)
  | line => ofAssignment line

end SettingsLine

/-- A settings text read so far. -/
structure Reading where
  /-- The open section. -/
  owner : Section := .root
  /-- The settings of the lines read. -/
  settings : Settings := .standard
  deriving DecidableEq, Repr

namespace Reading

/-- The effect of an assignment. -/
def assign (r : Reading) (key value : List Char) : Except SettingsError Reading :=
  match Field.named? r.owner key with
  | some f => (f.kind.read value).map fun v => { r with settings := r.settings.set f v }
  | none => .ok r

/-- The effect of what a line says. -/
def apply (r : Reading) : SettingsLine → Except SettingsError Reading
  | .silent => .ok r
  | .header (some owner) => .ok { r with owner }
  | .header none => .error .badSection
  | .assign key value => r.assign key value

/-- The effect of one line. -/
def step (r : Reading) (text : List Char) : Except SettingsError Reading :=
  r.apply (.ofText text)

/-- The effect of lines, in order, up to the first error. -/
def steps (r : Reading) : List (List Char) → Except SettingsError Reading
  | [] => .ok r
  | text :: rest =>
    match r.step text with
    | .ok r => r.steps rest
    | .error e => .error e

end Reading

/-- The settings of a text, or the error of its first faulty line. Fields no line assigns keep
their defaults. -/
def Settings.read (text : String) : Except SettingsError Settings :=
  (Reading.steps {} (lines text.toList)).map Reading.settings

/-- The settings of a text, or the defaults if it is refused. -/
def Settings.readOrStandard (text : String) : Settings :=
  match Settings.read text with
  | .ok settings => settings
  | .error _ => .standard

end StatusPanel
