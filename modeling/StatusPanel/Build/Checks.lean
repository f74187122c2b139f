import StatusPanel.Build.Document.Basic

/-!
# Checks of a settings document

The complaints about a settings document before the firmware is built with it: sections that the
settings do not have, and numbers out of range. Unknown keys and values of the wrong kind draw no
complaint.

## Main definitions

* `Checks.sections`: the complaints about sections
* `Checks.ranges`: the complaints about numbers
* `Checks.all`: both
-/

namespace StatusPanel.Checks

open Document (Value)

/-- The names of the sections of the settings. -/
def sectionNames : List String := ["display", "timing", "wpm", "rgb"]

/-- The complaint about an entry of the document: sections are tables, and tables are sections. -/
def entry (key : String) (value : Value) : List String :=
  if key ∈ sectionNames then
    if value.isTable then [] else [s!"'{key}' must be a [{key}] section"]
  else if value.isTable then [s!"unknown section [{key}]"]
  else []

/-- The complaints about the sections of a document. -/
def sections : Value → List String
  | .table entries => entries.flatMap fun (key, value) => entry key value
  | _ => []

/-- The integer of a key in a section. -/
def integer? (document : Value) (owner key : String) : Option Int :=
  ((document.get? owner).bind (·.get? key)).bind (·.integer?)

/-- A complaint about the integer of a key, if there is one and it fails a test. -/
def complain (document : Value) (owner key : String) (test : Int → Bool) (complaint : String) :
    List String :=
  match integer? document owner key with
  | some n => if test n then [] else [s!"[{owner}] {key} {complaint}"]
  | none => []

/-- A complaint unless an integer is above zero. -/
def positive (document : Value) (owner key : String) : List String :=
  complain document owner key (0 < ·) "must be positive"

/-- A complaint unless an integer is a byte. -/
def byte (document : Value) (owner key : String) : List String :=
  complain document owner key (fun n => 0 ≤ n && n ≤ 255) "must be 0-255"

/-- The complaints about the numbers of a document. -/
def ranges (document : Value) : List String :=
  complain document "display" "i2c_address" (fun n => 0 ≤ n && n ≤ 0x7F)
      "must be a 7-bit address" ++
    ["sleep_check_interval_ms", "bar_redraw_interval_ms"].flatMap (positive document "timing") ++
    ["scale_max", "sample_seconds", "sample_periods"].flatMap (positive document "wpm") ++
    complain document "wpm" "sample_periods" (· ≤ 64) "must be at most 64" ++
    ["effect", "hue", "sat", "val", "speed"].flatMap (byte document "rgb")

/-- All complaints about a document. -/
def all (document : Value) : List String :=
  sections document ++ ranges document

end StatusPanel.Checks
