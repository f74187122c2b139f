import StatusPanel.Proofs.Text.Names
import StatusPanel.Settings.Field

/-!
# Headers and keys

Four of the sections have a name that stands in a header, and every field is set by one key or by
two in its section. Some names mean something in one section only, so a key is a name together with
a section: here the keys are listed, each with the field that it sets and the kind of its values.
The reader knows these keys and no others.

## Main definitions

* `Section.title`, `Section.titled`: the names of the sections, and the sections that have one
* `SettingsKey`, `settingsKeys`: the keys of a settings text

## Main results

* `Section.named?_eq_find?`: what is read of the name in a header
* `Field.of_named?`, `Field.named?_of_mem`: what is read of the name of a field
* `mem_settingsKeys_iff`, `Field.named?_eq_some_iff`: the keys that are read are those of the list
-/

namespace StatusPanel

open Text

/-! ## Headers -/

namespace Section

/-- The name of a section in its header. The root has no header. -/
def title : Section → String
  | .root => ""
  | .display => "display"
  | .timing => "timing"
  | .typing => "wpm"
  | .lighting => "rgb"

/-- The sections that have a header. -/
def titled : List Section := [.display, .timing, .typing, .lighting]

/-- The name in a header is that of the section that it opens. -/
theorem named?_eq_find? (name : List Char) :
    named? name = titled.find? fun owner => owner.title.toList = name := by
  have hcons (owner : Section) (rest : List Section) :
      (owner :: rest).find? (fun owner => owner.title.toList = name) =
        if name = owner.title.toList then some owner
        else rest.find? fun owner => owner.title.toList = name := by
    by_cases h : name = owner.title.toList
    · simp [h]
    · simp [h, Ne.symm h]
  simp only [titled, hcons, List.find?_nil]
  rfl

theorem named?_title {owner : Section} (h : owner ≠ .root) :
    named? owner.title.toList = some owner := by
  cases owner with
  | root => exact absurd rfl h
  | _ => rfl

theorem eq_title_of_named? {name : List Char} {owner : Section} (h : named? name = some owner) :
    name = owner.title.toList := by
  rw [named?_eq_find?] at h
  have hname := List.find?_some (p := fun owner : Section => owner.title.toList = name) h
  exact (of_decide_eq_true hname).symm

theorem title_isNameChar (owner : Section) : ∀ c ∈ owner.title.toList, isNameChar c = true := by
  have hall : owner.title.toList.all isNameChar = true := by
    cases owner <;> decide
  exact List.all_eq_true.1 hall

end Section

/-! ## Keys -/

/-- A key of a settings text. -/
structure SettingsKey where
  /-- The section in which the key is known. -/
  owner : Section
  name : String
  /-- The field that the key sets. -/
  field : Field
  /-- The kind of the values of the key. -/
  kind : ValueKind
  deriving DecidableEq, Repr

/-- The keys of a settings text. -/
def settingsKeys : List SettingsKey :=
  [⟨.root, "led_pin", .ledPin, .pin⟩,
    ⟨.root, "ws2812_pin", .ledPin, .pin⟩,
    ⟨.display, "i2c_address", .address, .busAddress⟩,
    ⟨.display, "address", .address, .busAddress⟩,
    ⟨.display, "i2c_frequency", .frequency, .word⟩,
    ⟨.display, "frequency", .frequency, .word⟩,
    ⟨.display, "sda_pin", .sdaPin, .pin⟩,
    ⟨.display, "scl_pin", .sclPin, .pin⟩,
    ⟨.display, "width", .width, .half⟩,
    ⟨.display, "height", .height, .half⟩,
    ⟨.timing, "sleep_timeout_ms", .sleepTimeout, .word⟩,
    ⟨.timing, "timeout_ms", .sleepTimeout, .word⟩,
    ⟨.timing, "sleep_check_interval_ms", .checkInterval, .positiveWord⟩,
    ⟨.timing, "check_interval_ms", .checkInterval, .positiveWord⟩,
    ⟨.timing, "bar_redraw_interval_ms", .barInterval, .positiveWord⟩,
    ⟨.typing, "scale_max", .scaleMax, .positiveHalf⟩,
    ⟨.typing, "sample_seconds", .sampleSeconds, .positiveHalf⟩,
    ⟨.typing, "sample_periods", .samplePeriods, .positiveByte⟩,
    ⟨.lighting, "enabled", .enabled, .flag⟩,
    ⟨.lighting, "effect", .effect, .byte⟩,
    ⟨.lighting, "mode", .effect, .byte⟩,
    ⟨.lighting, "hue", .hue, .byte⟩,
    ⟨.lighting, "sat", .sat, .byte⟩,
    ⟨.lighting, "saturation", .sat, .byte⟩,
    ⟨.lighting, "val", .val, .byte⟩,
    ⟨.lighting, "value", .val, .byte⟩,
    ⟨.lighting, "speed", .speed, .byte⟩]

/-- The list has the names of every field, in the section and of the kind of the field. -/
theorem mem_settingsKeys_iff {key : SettingsKey} :
    key ∈ settingsKeys ↔
      key.field.owner = key.owner ∧ key.name ∈ key.field.names ∧ key.field.kind = key.kind := by
  constructor
  · intro h
    have hall : ∀ key ∈ settingsKeys, key.field.owner = key.owner ∧
        key.name ∈ key.field.names ∧ key.field.kind = key.kind := by decide
    exact hall key h
  · obtain ⟨owner, name, f, kind⟩ := key
    rintro ⟨howner, hname, hkind⟩
    dsimp only at howner hname hkind
    subst howner hkind
    have hall : ∀ name ∈ f.names, ⟨f.owner, name, f, f.kind⟩ ∈ settingsKeys := by
      cases f <;> decide
    exact hall name hname

namespace Field

/-- A key that names a field in a section is a name of a field of that section. -/
theorem of_named? {owner : Section} {key : List Char} {f : Field}
    (h : named? owner key = some f) : f.owner = owner ∧ ∃ name ∈ f.names, name.toList = key := by
  have hfound := List.find?_some (p := fun f : Field => f.owner == owner && f.hasName key) h
  obtain ⟨howner, hname⟩ := Bool.and_eq_true_iff.1 hfound
  obtain ⟨name, hmem, heq⟩ := List.any_eq_true.1 hname
  exact ⟨beq_iff_eq.1 howner, name, hmem, beq_iff_eq.1 heq⟩

/-- Every name of a field names it in its section. -/
theorem named?_of_mem (f : Field) :
    ∀ name ∈ f.names, named? f.owner name.toList = some f := by
  cases f <;> decide

/-- **The keys that are read** are those of the list. -/
theorem named?_eq_some_iff {owner : Section} {text : List Char} {f : Field} :
    named? owner text = some f ↔
      ∃ key ∈ settingsKeys, key.owner = owner ∧ key.name.toList = text ∧ key.field = f := by
  constructor
  · intro h
    obtain ⟨rfl, name, hname, rfl⟩ := of_named? h
    exact ⟨⟨f.owner, name, f, f.kind⟩, mem_settingsKeys_iff.2 ⟨rfl, hname, rfl⟩, rfl, rfl, rfl⟩
  · rintro ⟨key, hkey, rfl, rfl, rfl⟩
    obtain ⟨howner, hname, -⟩ := mem_settingsKeys_iff.1 hkey
    rw [← howner]
    exact key.field.named?_of_mem key.name hname

theorem names_isNameChar (f : Field) :
    ∀ name ∈ f.names, name.toList ≠ [] ∧ ∀ c ∈ name.toList, isNameChar c = true := by
  have hall : ∀ name ∈ f.names, name.toList ≠ [] ∧ name.toList.all isNameChar = true := by
    cases f <;> decide
  exact fun name hname => ⟨(hall name hname).1, List.all_eq_true.1 (hall name hname).2⟩

end Field

end StatusPanel
