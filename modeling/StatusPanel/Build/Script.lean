import StatusPanel.Build.Checks
import StatusPanel.Build.Document.Reader
import StatusPanel.Build.Notice

/-!
# The build step

Before the firmware is built, the memory layout is laid out for the linker and the settings file is
checked. The step prints instructions for the build, or fails with a framed notice.

## Main definitions

* `SettingsFile`: the settings file as it is found
* `BuildResult`: what the step prints, and the files it lays out
* `Script.check`: the check of the settings file
* `Script.full`: the whole step
-/

namespace StatusPanel

/-- The settings file as it is found. -/
inductive SettingsFile
  /-- There is none. -/
  | missing
  /-- Its bytes. -/
  | bytes (content : ByteArray)
  /-- The document it holds. -/
  | document (value : Document.Value)

/-- The result of a successful build step. -/
structure BuildResult where
  /-- The printed lines. -/
  printed : List String
  /-- The memory layout laid out for the linker. -/
  memoryLayout : Option String

/-- Why a build step fails. -/
inductive BuildError
  /-- With a notice. -/
  | notice (text : String)
  /-- While a notice was put together. -/
  | unframed

namespace Script

/-- The memory layout of the board's chip. -/
def memoryLayout : String :=
  "MEMORY \x7b
    BOOT2 : ORIGIN = 0x10000000, LENGTH = 0x100
    FLASH : ORIGIN = 0x10000100, LENGTH = 2048K - 0x100
    RAM   : ORIGIN = 0x20000000, LENGTH = 256K
\x7d

EXTERN(BOOT2_FIRMWARE)

SECTIONS \x7b
    /* ### Boot loader */
    .boot2 ORIGIN(BOOT2) :
    \x7b
        KEEP(*(.boot2));
    \x7d > BOOT2
\x7d INSERT BEFORE .text;
"

/-- The instructions for the linker, which finds the memory layout in a directory. -/
def linkerLines (directory : String) : List String :=
  ["cargo:rustc-link-search=" ++ directory, "cargo:rustc-link-arg-bins=--nmagic",
    "cargo:rustc-link-arg-bins=-Tlink.x", "cargo:rustc-link-arg-bins=-Tlink-rp.x",
    "cargo:rustc-link-arg-bins=-Tdefmt.x", "cargo:rerun-if-changed=memory.x",
    "cargo:rerun-if-changed=build.rs"]

/-- The document of a settings file. -/
def document : SettingsFile → Except BuildError Document.Value
  | .missing => .error (.notice Notice.missing)
  | .document value => .ok value
  | .bytes content =>
    match String.fromUTF8? content with
    | none => .error (.notice (Notice.unreadable "stream did not contain valid UTF-8"))
    | some text =>
      match Document.read text with
      | .ok value => .ok value
      | .error message =>
        match Notice.malformed? message with
        | some text => .error (.notice text)
        | none => .error .unframed

/-- The printed lines of a successful check. -/
def checkLines : List String :=
  ["cargo:rerun-if-changed=keyboard.toml",
    "cargo:warning=keyboard.toml validated successfully"]

/-- Checks a settings file. -/
def check (file : SettingsFile) : Except BuildError BuildResult :=
  match document file with
  | .error e => .error e
  | .ok value =>
    match Checks.all value with
    | [] => .ok ⟨checkLines, none⟩
    | complaints => .error (.notice (Notice.invalid complaints))

/-- The whole step with a directory for what it lays out. -/
def full (directory : String) (file : SettingsFile) : Except BuildError BuildResult :=
  (check file).map fun result =>
    ⟨linkerLines directory ++ result.printed, some memoryLayout⟩

end Script

end StatusPanel
