import StatusPanel.Settings.Reader

/-!
# The range of settings

A kind of values has a range, which may be smaller than its type. Whatever a text assigns was read
as a value of its field's kind, and the defaults are in range as well, so every field of settings
that were read is in the range of its kind.

## Main definitions

* `ValueKind.least`, `ValueKind.greatest`: the bounds of a kind
* `ValueKind.InRange`, `Settings.InRange`: values and settings that are in range

## Main results

* `ValueKind.inRange_of_read`: a value that was read is in range
* `Settings.inRange_of_read`: so are settings that were read
-/

namespace StatusPanel

namespace ValueKind

/-- The number that a value stands for. -/
def number : (kind : ValueKind) → kind.Value → Nat
  | .byte, v | .positiveByte, v | .busAddress, v | .pin, v => UInt8.toNat v
  | .half, v | .positiveHalf, v => UInt16.toNat v
  | .word, v | .positiveWord, v => UInt32.toNat v
  | .flag, v => Bool.toNat v

/-- The least number of a kind. -/
def least : ValueKind → Nat
  | .positiveByte | .positiveHalf | .positiveWord => 1
  | .byte | .half | .word | .busAddress | .pin | .flag => 0

/-- The greatest number of a kind. -/
def greatest : ValueKind → Nat
  | .byte | .positiveByte => 0xFF
  | .half | .positiveHalf => 0xFFFF
  | .word | .positiveWord => 0xFFFFFFFF
  | .busAddress => 0x7F
  | .pin => lastPin
  | .flag => 1

/-- Whether a value is in the range of its kind. -/
def InRange (kind : ValueKind) (v : kind.Value) : Prop :=
  kind.least ≤ kind.number v ∧ kind.number v ≤ kind.greatest

instance (kind : ValueKind) (v : kind.Value) : Decidable (kind.InRange v) :=
  inferInstanceAs (Decidable (_ ∧ _))

instance : (kind : ValueKind) → DecidableEq kind.Value
  | .byte | .positiveByte | .busAddress | .pin => inferInstanceAs (DecidableEq UInt8)
  | .half | .positiveHalf => inferInstanceAs (DecidableEq UInt16)
  | .word | .positiveWord => inferInstanceAs (DecidableEq UInt32)
  | .flag => inferInstanceAs (DecidableEq Bool)

end ValueKind

/-- Whether every field is in the range of its kind. -/
def Settings.InRange (s : Settings) : Prop := ∀ f : Field, f.kind.InRange (s.get f)

theorem Except.exists_of_map_eq_ok {ε α β : Type} {f : α → β} {x : Except ε α} {b : β}
    (h : x.map f = .ok b) : ∃ a, x = .ok a ∧ f a = b := by
  cases x with
  | ok a => exact ⟨a, rfl, Except.ok.inj h⟩
  | error e => cases h

/-- A value that was read is in the range of its kind. -/
theorem ValueKind.inRange_of_read {kind : ValueKind} {s : List Char} {v : kind.Value}
    (h : kind.read s = .ok v) : kind.InRange v := by
  -- The cases are those of the types of values: a number that was read fits its type.
  cases kind with
  | byte | positiveByte | busAddress =>
    obtain ⟨n, hn, rfl⟩ := Except.exists_of_map_eq_ok h
    obtain ⟨-, hlo, hhi⟩ := integerIn_eq_ok_iff.1 hn
    simp only [InRange, least, greatest, number, UInt8.toNat_ofNat', UInt8.size] at *
    omega
  | half | positiveHalf =>
    obtain ⟨n, hn, rfl⟩ := Except.exists_of_map_eq_ok h
    obtain ⟨-, hlo, hhi⟩ := integerIn_eq_ok_iff.1 hn
    simp only [InRange, least, greatest, number, UInt16.toNat_ofNat', UInt16.size] at *
    omega
  | word | positiveWord =>
    obtain ⟨n, hn, rfl⟩ := Except.exists_of_map_eq_ok h
    obtain ⟨-, hlo, hhi⟩ := integerIn_eq_ok_iff.1 hn
    simp only [InRange, least, greatest, number, UInt32.toNat_ofNat', UInt32.size] at *
    omega
  | pin =>
    obtain ⟨n, hn, rfl⟩ := Except.exists_of_map_eq_ok h
    obtain ⟨-, hle⟩ := pin?_eq_ok_iff.1 hn
    simp only [InRange, least, greatest, number, UInt8.toNat_ofNat', lastPin] at *
    omega
  | flag => cases v <;> decide

namespace Settings

theorem inRange_standard : standard.InRange := by
  intro f
  cases f <;> decide

/-- A value in range leaves the settings in range. -/
theorem InRange.set {s : Settings} (h : s.InRange) {f : Field} {v : f.kind.Value}
    (hv : f.kind.InRange v) : (s.set f v).InRange := by
  intro g
  by_cases hg : g = f
  · subst hg
    rw [get_set_self]
    exact hv
  · rw [get_set_of_ne s v hg]
    exact h g

end Settings

namespace Reading

/-- A line leaves the settings in range. -/
theorem inRange_of_step {r r' : Reading} {text : List Char} (h : r.settings.InRange)
    (hstep : r.step text = .ok r') : r'.settings.InRange := by
  unfold step at hstep
  cases hline : SettingsLine.ofText text with
  | silent =>
    rw [hline] at hstep
    exact Except.ok.inj hstep ▸ h
  | header opened =>
    rw [hline] at hstep
    cases opened with
    | none => cases hstep
    | some owner => exact Except.ok.inj hstep ▸ h
  | assign key value =>
    rw [hline] at hstep
    change r.assign key value = .ok r' at hstep
    unfold assign at hstep
    cases hnamed : Field.named? r.owner key with
    | none =>
      rw [hnamed] at hstep
      exact Except.ok.inj hstep ▸ h
    | some f =>
      rw [hnamed] at hstep
      obtain ⟨v, hv, rfl⟩ := Except.exists_of_map_eq_ok hstep
      exact h.set (ValueKind.inRange_of_read hv)

/-- Lines leave the settings in range. -/
theorem inRange_of_steps {r r' : Reading} {texts : List (List Char)} (h : r.settings.InRange)
    (hsteps : r.steps texts = .ok r') : r'.settings.InRange := by
  induction texts generalizing r with
  | nil => exact Except.ok.inj hsteps ▸ h
  | cons text rest ih =>
    unfold steps at hsteps
    cases hstep : r.step text with
    | ok next =>
      rw [hstep] at hsteps
      exact ih (inRange_of_step h hstep) hsteps
    | error e =>
      rw [hstep] at hsteps
      cases hsteps

end Reading

/-- Every field of settings that were read is in the range of its kind. -/
theorem Settings.inRange_of_read {text : String} {s : Settings} (h : read text = .ok s) :
    s.InRange := by
  obtain ⟨r, hsteps, rfl⟩ := Except.exists_of_map_eq_ok h
  exact Reading.inRange_of_steps inRange_standard hsteps

end StatusPanel
