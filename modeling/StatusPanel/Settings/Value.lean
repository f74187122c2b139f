import StatusPanel.Settings.Basic
import StatusPanel.Text.Numeral

/-!
# Written values

How the value of a setting is written: integers in decimal or hexadecimal within bounds, pins, and
flags. Every way of writing is a kind, and each kind reads its own type of value.

## Main definitions

* `integer?`, `pin?`, `flag?`: the three forms of a value
* `ValueKind`: the kinds of values
* `ValueKind.read`: reads a value of a kind

## Main results

* `integerIn_eq_ok_iff`, `pin?_eq_ok_iff`: exactly when a text is a value
-/

namespace StatusPanel

open Text

/-- The value of an integer: hexadecimal behind `0x` or `0X`, otherwise decimal. -/
def integer? : List Char → Option Nat
  | '0' :: 'x' :: digits => numeral? 16 digits
  | '0' :: 'X' :: digits => numeral? 16 digits
  | digits => numeral? 10 digits

/-- The value of an integer that lies in `lo … hi - 1`. -/
def integerIn (lo hi : Nat) (s : List Char) : Except SettingsError Nat :=
  match integer? s with
  | some n => if lo ≤ n ∧ n < hi then .ok n else .error .badValue
  | none => .error .badValue

/-- A text without one pair of enclosing quotes, if it has both. -/
def unquote (s : List Char) : List Char :=
  match s with
  | '"' :: rest => if rest.getLast? = some '"' then rest.dropLast else s
  | _ => s

/-- A pin's text without the word in front of its number. -/
def withoutPinWord : List Char → List Char
  | 'g' :: 'p' :: 'i' :: 'o' :: rest => rest
  | 'G' :: 'P' :: rest => rest
  | s => s

/-- The highest pin of the board's chip. -/
def lastPin : Nat := 29

/-- The number of a pin, bare or behind its word, with or without quotes. -/
def pin? (s : List Char) : Except SettingsError Nat :=
  match numeral? 10 (withoutPinWord (unquote s)) with
  | some n => if n ≤ lastPin then .ok n else .error .badPin
  | none => .error .badPin

/-- The value of a flag. -/
def flag? (s : List Char) : Except SettingsError Bool :=
  if s = "true".toList then .ok true
  else if s = "false".toList then .ok false
  else .error .badValue

/-- The kinds of values. -/
inductive ValueKind
  /-- An integer of 8 bits. -/
  | byte
  /-- An integer of 16 bits. -/
  | half
  /-- An integer of 32 bits. -/
  | word
  /-- An integer of 8 bits other than zero. -/
  | positiveByte
  /-- An integer of 16 bits other than zero. -/
  | positiveHalf
  /-- An integer of 32 bits other than zero. -/
  | positiveWord
  /-- An integer of 7 bits. -/
  | busAddress
  /-- A pin of the board's chip. -/
  | pin
  /-- A truth value. -/
  | flag
  deriving DecidableEq, Repr

namespace ValueKind

/-- The type of the values of a kind. -/
abbrev Value : ValueKind → Type
  | .byte | .positiveByte | .busAddress | .pin => UInt8
  | .half | .positiveHalf => UInt16
  | .word | .positiveWord => UInt32
  | .flag => Bool

/-- The value of a kind that a text writes. -/
def read : (kind : ValueKind) → List Char → Except SettingsError kind.Value
  | .byte, s => (integerIn 0 UInt8.size s).map UInt8.ofNat
  | .half, s => (integerIn 0 UInt16.size s).map UInt16.ofNat
  | .word, s => (integerIn 0 UInt32.size s).map UInt32.ofNat
  | .positiveByte, s => (integerIn 1 UInt8.size s).map UInt8.ofNat
  | .positiveHalf, s => (integerIn 1 UInt16.size s).map UInt16.ofNat
  | .positiveWord, s => (integerIn 1 UInt32.size s).map UInt32.ofNat
  | .busAddress, s => (integerIn 0 128 s).map UInt8.ofNat
  | .pin, s => (pin? s).map UInt8.ofNat
  | .flag, s => flag? s

end ValueKind

theorem integerIn_eq_ok_iff {lo hi n : Nat} {s : List Char} :
    integerIn lo hi s = .ok n ↔ integer? s = some n ∧ lo ≤ n ∧ n < hi := by
  cases h : integer? s with
  | none => simp [integerIn, h]
  | some m => by_cases hm : lo ≤ m ∧ m < hi <;> simp [integerIn, h, hm] <;> grind

theorem pin?_eq_ok_iff {n : Nat} {s : List Char} :
    pin? s = .ok n ↔ numeral? 10 (withoutPinWord (unquote s)) = some n ∧ n ≤ lastPin := by
  cases h : numeral? 10 (withoutPinWord (unquote s)) with
  | none => simp [pin?, h]
  | some m => by_cases hm : m ≤ lastPin <;> simp [pin?, h, hm] <;> grind

end StatusPanel
