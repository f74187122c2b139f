import StatusPanel.Proofs.Text.Written
import StatusPanel.Text.Name

/-!
# The characters of names

Names stand between blanks and marks: none of their characters is one of these. The digits of a
number are characters of names.

## Main results

* `isNameChar_iff`: the code points of the characters of names
* `isBlank_of_isNameChar`, `not_mem_of_isNameChar`, `trimmed_of_isNameChar`: what a name has none of
* `isNameChar_of_digitsFrom?`: digits are characters of names
-/

namespace StatusPanel.Text

/-- The code points of the characters of names. -/
theorem isNameChar_iff {c : Char} :
    isNameChar c = true ↔ (48 ≤ c.toNat ∧ c.toNat ≤ 57) ∨ (65 ≤ c.toNat ∧ c.toNat ≤ 90) ∨
      (97 ≤ c.toNat ∧ c.toNat ≤ 122) ∨ c.toNat = 95 ∨ c.toNat = 45 := by
  have hupper : c.isUpper = decide (c.val ≥ 'A'.val ∧ c.val ≤ 'Z'.val) := rfl
  have hlower : c.isLower = (decide (c.val ≥ 'a'.val) && decide (c.val ≤ 'z'.val)) := rfl
  have halnum : c.isAlphanum = ((c.isUpper || c.isLower) || c.isDigit) := rfl
  rw [isNameChar, halnum, hupper, hlower]
  simp only [Char.isDigit, Bool.or_eq_true, Bool.and_eq_true, decide_eq_true_eq, beq_iff_eq,
    ge_iff_le, UInt32.le_iff_toNat_le, ← Char.toNat_inj]
  change ((((65 ≤ c.toNat ∧ c.toNat ≤ 90) ∨ (97 ≤ c.toNat ∧ c.toNat ≤ 122)) ∨
    (48 ≤ c.toNat ∧ c.toNat ≤ 57)) ∨ c.toNat = 95) ∨ c.toNat = 45 ↔ _
  omega

theorem isBlank_of_isNameChar {c : Char} (h : isNameChar c = true) : isBlank c = false := by
  have hrange := isNameChar_iff.1 h
  simp only [isBlank, blankRanges, List.any_cons, List.any_nil, Bool.or_false, Bool.or_eq_false_iff,
    Bool.and_eq_false_iff, decide_eq_false_iff_not]
  omega

theorem isNameChar_of_isDigit {c : Char} (h : c.isDigit = true) : isNameChar c = true := by
  simp [isNameChar, Char.isAlphanum, h]

/-- A name has none of these characters. -/
theorem not_mem_of_isNameChar {s : List Char} (h : ∀ c ∈ s, isNameChar c = true) {c : Char}
    (hc : isNameChar c = false) : c ∉ s := by
  intro hmem
  rw [h c hmem] at hc
  cases hc

theorem trimmed_of_isNameChar {s : List Char} (h : ∀ c ∈ s, isNameChar c = true) : Trimmed s where
  head c hc := isBlank_of_isNameChar (h c (List.mem_of_mem_head? hc))
  last c hc := isBlank_of_isNameChar (h c (List.mem_of_mem_getLast? hc))

/-- The digits of a base up to sixteen are characters of names. -/
theorem isNameChar_of_digitsFrom? {base acc n : Nat} {s : List Char}
    (h : digitsFrom? base acc s = some n) : ∀ c ∈ s, isNameChar c = true := by
  induction s generalizing acc with
  | nil => exact nofun
  | cons c s ih =>
    obtain ⟨d, hd, hs⟩ := Option.bind_eq_some_iff.1 h
    refine List.forall_mem_cons.2 ⟨?_, ih hs⟩
    have hhex : hexDigit? c = some d := (Option.filter_eq_some_iff.1 hd).1
    rw [hexDigit?_eq] at hhex
    rw [isNameChar_iff]
    grind

end StatusPanel.Text
