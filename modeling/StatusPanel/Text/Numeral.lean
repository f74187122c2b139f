/-!
# Numerals

An unsigned numeral is an optional plus sign and at least one digit of its base. Leading zeros are
allowed without limit.

## Main definitions

* `hexDigit?`, `digitValue?`: the value of a digit, in base sixteen and in bases up to it
* `numeral?`: the value of a numeral
-/

namespace StatusPanel.Text

/-- The value of an ASCII digit, or of an ASCII letter from `a` to `f` of either case. -/
def hexDigit? (c : Char) : Option Nat :=
  if '0' ≤ c ∧ c ≤ '9' then some (c.toNat - '0'.toNat)
  else if 'a' ≤ c ∧ c ≤ 'f' then some (c.toNat - 'a'.toNat + 10)
  else if 'A' ≤ c ∧ c ≤ 'F' then some (c.toNat - 'A'.toNat + 10)
  else none

/-- The value of a digit of a base up to sixteen. -/
def digitValue? (base : Nat) (c : Char) : Option Nat :=
  (hexDigit? c).filter (· < base)

/-- The value of a string of digits that continues the value `acc`. -/
def digitsFrom? (base acc : Nat) : List Char → Option Nat
  | [] => some acc
  | c :: rest => (digitValue? base c).bind fun d => digitsFrom? base (acc * base + d) rest

/-- A text without one plus sign at its start. -/
def withoutPlus : List Char → List Char
  | '+' :: rest => rest
  | s => s

/-- The value of a numeral: an optional plus sign, then at least one digit. -/
def numeral? (base : Nat) (s : List Char) : Option Nat :=
  match withoutPlus s with
  | [] => none
  | digits => digitsFrom? base 0 digits

@[simp] theorem digitsFrom?_nil (base acc : Nat) : digitsFrom? base acc [] = some acc := rfl

@[simp] theorem numeral?_nil (base : Nat) : numeral? base [] = none := rfl

end StatusPanel.Text
