import Mathlib.Data.List.Forall2
import Mathlib.Data.Nat.Digits.Defs
import StatusPanel.Proofs.Text.Written

/-!
# Positional notation

A numeral stands for the sum of its digits, each times a power of the base. It is read from the
left, so the value of what was read so far is multiplied by the base and the next digit is added. A
word holds numbers below a bound only: a reader that keeps the value in a word and gives up when it
does not fit loses exactly the numerals of numbers that are too great, as the value never falls.

## Main definitions

* `IsDigitOf`: the digit of a value, with letters of either case
* `IsNumeral`: the numerals of a number
* `digitsBelow?`, `numeralBelow?`: readers that keep the value in a word

## Main results

* `numeral?_eq_some_iff`: exactly the numerals of a number are read as that number
* `numeralBelow?_eq`: a word loses exactly the numbers that are too great
-/

namespace StatusPanel.Text

/-! ## Numerals of a number -/

/-- The digit of a value in a base, where a letter may be of either case. -/
def IsDigitOf (base : Nat) (c : Char) (d : Nat) : Prop := d < base ∧ c.toLower = Nat.digitChar d

/-- The numerals of a number: perhaps a plus sign, and then one or more digits, which stand for the
sum of their values times the powers of the base. -/
def IsNumeral (base n : Nat) (s : List Char) : Prop :=
  ∃ sign digits values, s = sign ++ digits ∧ (sign = [] ∨ sign = ['+']) ∧ digits ≠ [] ∧
    List.Forall₂ (IsDigitOf base) digits values ∧ Nat.ofDigits base values.reverse = n

theorem toLower_of_hexDigit? {c : Char} {d : Nat} (h : hexDigit? c = some d) :
    c.toLower = Nat.digitChar d := by
  have hchar : ∀ d < 16, (Nat.digitChar d).toNat = if d < 10 then d + 48 else d + 87 := by decide
  rw [hexDigit?_eq] at h
  rw [← Char.toNat_inj, toNat_toLower, hchar d (by grind)]
  grind

theorem digitValue?_eq_some_iff {base : Nat} (hbase : base ≤ 16) {c : Char} {d : Nat} :
    digitValue? base c = some d ↔ IsDigitOf base c d := by
  rw [digitValue?, Option.filter_eq_some_iff, decide_eq_true_eq]
  constructor
  · rintro ⟨hvalue, hlt⟩
    exact ⟨hlt, toLower_of_hexDigit? hvalue⟩
  · rintro ⟨hlt, hlower⟩
    rw [← hexDigit?_toLower, hlower]
    exact ⟨hexDigit?_digitChar (Nat.lt_of_lt_of_le hlt hbase), hlt⟩

theorem digitsFrom?_eq_some_iff {base : Nat} (hbase : base ≤ 16) {acc n : Nat} {s : List Char} :
    digitsFrom? base acc s = some n ↔
      ∃ values, List.Forall₂ (IsDigitOf base) s values ∧
        values.foldl (fun value d => value * base + d) acc = n := by
  induction s generalizing acc with
  | nil => simp [digitsFrom?]
  | cons c s ih =>
    rw [digitsFrom?, Option.bind_eq_some_iff]
    constructor
    · rintro ⟨d, hd, hrest⟩
      obtain ⟨values, hvalues, hfold⟩ := ih.1 hrest
      exact ⟨d :: values, .cons ((digitValue?_eq_some_iff hbase).1 hd) hvalues, hfold⟩
    · rintro ⟨values, hvalues, hfold⟩
      obtain ⟨d, rest, hd, hrest, rfl⟩ := List.forall₂_cons_left_iff.1 hvalues
      exact ⟨d, (digitValue?_eq_some_iff hbase).2 hd, ih.2 ⟨rest, hrest, hfold⟩⟩

/-- Digits from the left, the value so far times the base each time, are the sum of the digits
times the powers of the base. -/
theorem foldl_eq_ofDigits (base : Nat) (values : List Nat) :
    values.foldl (fun value d => value * base + d) 0 = Nat.ofDigits base values.reverse := by
  rw [Nat.ofDigits_eq_foldr, List.foldr_reverse]
  congr 1
  funext value d
  rw [Nat.cast_id, Nat.mul_comm, Nat.add_comm]

theorem exists_sign (s : List Char) :
    ∃ sign, (sign = [] ∨ sign = ['+']) ∧ s = sign ++ withoutPlus s := by
  unfold withoutPlus
  split
  · exact ⟨['+'], Or.inr rfl, rfl⟩
  · exact ⟨[], Or.inl rfl, rfl⟩

theorem numeral?_of_ne_nil {base : Nat} {s : List Char} (hne : withoutPlus s ≠ []) :
    numeral? base s = digitsFrom? base 0 (withoutPlus s) := by
  unfold numeral?
  split
  case h_1 hnil => exact absurd hnil hne
  case h_2 => rfl

/-- **Exactly the numerals of a number are read as that number**, in every base up to sixteen. -/
theorem numeral?_eq_some_iff {base : Nat} (hbase : base ≤ 16) {n : Nat} {s : List Char} :
    numeral? base s = some n ↔ IsNumeral base n s := by
  constructor
  · intro h
    have hne : withoutPlus s ≠ [] := by
      intro hnil
      rw [numeral?, hnil] at h
      cases h
    rw [numeral?_of_ne_nil hne] at h
    obtain ⟨values, hvalues, hfold⟩ := (digitsFrom?_eq_some_iff hbase).1 h
    obtain ⟨sign, hsign, hs⟩ := exists_sign s
    exact ⟨sign, withoutPlus s, values, hs, hsign, hne, hvalues,
      (foldl_eq_ofDigits base values).symm.trans hfold⟩
  · rintro ⟨sign, digits, values, rfl, hsign, hne, hvalues, rfl⟩
    have hdigits : digitsFrom? base 0 digits = some (Nat.ofDigits base values.reverse) :=
      (digitsFrom?_eq_some_iff hbase).2 ⟨values, hvalues, foldl_eq_ofDigits base values⟩
    rcases hsign with rfl | rfl
    · exact numeral?_of_digitsFrom? hne hdigits
    · exact (numeral?_of_ne_nil (s := '+' :: digits) hne).trans hdigits

/-! ## Numerals read into a word -/

/-- A number, if it is below a bound. -/
def below? (bound n : Nat) : Option Nat := if n < bound then some n else none

/-- The value of a string of digits that continues the value `acc`, kept below a bound: nothing if
the product with the base or the sum with a digit is not. -/
def digitsBelow? (bound base acc : Nat) : List Char → Option Nat
  | [] => some acc
  | c :: rest => do
    let d ← digitValue? base c
    let product ← below? bound (acc * base)
    let value ← below? bound (product + d)
    digitsBelow? bound base value rest

/-- The value of a numeral, kept below a bound. -/
def numeralBelow? (bound base : Nat) (s : List Char) : Option Nat :=
  match withoutPlus s with
  | [] => none
  | digits => digitsBelow? bound base 0 digits

/-- The value of digits never falls. -/
theorem le_of_digitsFrom? {base : Nat} (hbase : 0 < base) {acc n : Nat} {s : List Char}
    (h : digitsFrom? base acc s = some n) : acc ≤ n := by
  induction s generalizing acc with
  | nil => exact Nat.le_of_eq (Option.some.inj h)
  | cons c s ih =>
    obtain ⟨d, -, hrest⟩ := Option.bind_eq_some_iff.1 h
    calc acc ≤ acc * base := Nat.le_mul_of_pos_right _ hbase
      _ ≤ acc * base + d := Nat.le_add_right _ _
      _ ≤ n := ih hrest

/-- Digits that are not read into a word stand for a number that is too great for it. -/
theorem digitsBelow?_eq {bound base : Nat} (hbase : 0 < base) {acc : Nat} (hacc : acc < bound)
    (s : List Char) :
    digitsBelow? bound base acc s = (digitsFrom? base acc s).filter (· < bound) := by
  induction s generalizing acc with
  | nil => rw [digitsBelow?, digitsFrom?, Option.filter_some, if_pos (decide_eq_true hacc)]
  | cons c s ih =>
    rw [digitsBelow?, digitsFrom?]
    cases hdigit : digitValue? base c with
    | none => rfl
    | some d =>
      by_cases hvalue : acc * base + d < bound
      · have hproduct : acc * base < bound := Nat.lt_of_le_of_lt (Nat.le_add_right _ _) hvalue
        simp only [below?, if_pos hproduct, if_pos hvalue, Option.bind_eq_bind, Option.bind_some]
        exact ih hvalue
      · -- the digits to come do not bring the value back below the bound
        have hnone : (digitsFrom? base (acc * base + d) s).filter (· < bound) = none := by
          rw [Option.filter_eq_none_iff]
          intro n hn hlt
          exact hvalue (Nat.lt_of_le_of_lt (le_of_digitsFrom? hbase hn) (of_decide_eq_true hlt))
        rw [Option.bind_some, hnone]
        by_cases hproduct : acc * base < bound
        · simp only [below?, if_pos hproduct, if_neg hvalue, Option.bind_eq_bind, Option.bind_some,
            Option.bind_none]
        · simp only [below?, if_neg hproduct, Option.bind_eq_bind, Option.bind_some,
            Option.bind_none]

/-- **A word loses exactly the numbers that are too great for it.** -/
theorem numeralBelow?_eq {bound base : Nat} (hbound : 0 < bound) (hbase : 0 < base)
    (s : List Char) : numeralBelow? bound base s = (numeral? base s).filter (· < bound) := by
  unfold numeralBelow? numeral?
  cases withoutPlus s with
  | nil => rfl
  | cons c rest => exact digitsBelow?_eq hbase hbound (c :: rest)

end StatusPanel.Text
