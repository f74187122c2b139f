import StatusPanel.Proofs.Text.Names
import StatusPanel.Settings.Value

/-!
# The parts of a value

What is left of a value when its quotes and the word of a pin are taken away, and which characters a
number and a pin can have.

## Main results

* `integer?_of_numeral?`: a decimal numeral is an integer
* `unquote_quoted`, `unquote_of_ne`: text with quotes around it, and text without
* `of_mem_pin`, `of_unquote_pin`: the characters of a pin, and its quotes
-/

namespace StatusPanel

open Text

/-! ## Numbers -/

/-- A decimal numeral has no mark of a hexadecimal one. -/
theorem integer?_of_numeral? {n : Nat} {s : List Char} (h : numeral? 10 s = some n) :
    integer? s = some n := by
  have hmark {c : Char} (hc : c ∈ s) : c ≠ 'x' ∧ c ≠ 'X' := by
    constructor
    all_goals
      rintro rfl
      exact absurd (of_mem_numeral? h _ hc) (by decide)
  unfold integer?
  split
  · exact absurd rfl (hmark (by simp)).1
  · exact absurd rfl (hmark (by simp)).2
  · exact h

/-! ## Quotes and words -/

theorem unquote_quoted (s : List Char) : unquote ('"' :: (s ++ ['"'])) = s := by
  simp [unquote]

/-- A text that starts with no double quote stands as it is. -/
theorem unquote_of_ne {s : List Char} (h : ∀ rest, s ≠ '"' :: rest) : unquote s = s := by
  unfold unquote
  split
  · exact absurd rfl (h _)
  · rfl

theorem unquote_of_isDigit {s : List Char} (h : ∀ c ∈ s, c.isDigit = true) : unquote s = s := by
  refine unquote_of_ne ?_
  rintro rest rfl
  exact absurd (h '"' List.mem_cons_self) (by decide)

theorem withoutPinWord_of_isDigit {s : List Char} (h : ∀ c ∈ s, c.isDigit = true) :
    withoutPinWord s = s := by
  unfold withoutPinWord
  split
  · exact absurd (h 'g' (by simp)) (by decide)
  · exact absurd (h 'G' (by simp)) (by decide)
  · rfl

/-- What stands before the number of a pin are characters of names. -/
theorem exists_pinWord (s : List Char) :
    ∃ word, (∀ c ∈ word, isNameChar c = true) ∧ s = word ++ withoutPinWord s := by
  unfold withoutPinWord
  split
  · exact ⟨"gpio".toList, List.all_eq_true.1 (by decide), rfl⟩
  · exact ⟨"GP".toList, List.all_eq_true.1 (by decide), rfl⟩
  · exact ⟨[], nofun, rfl⟩

/-- The characters of a pin: those of names, and the plus sign. -/
theorem of_mem_pin {s : List Char} {n : Nat} (h : numeral? 10 (withoutPinWord s) = some n) :
    ∀ c ∈ s, isNameChar c = true ∨ c = '+' := by
  intro c hc
  obtain ⟨word, hword, hs⟩ := exists_pinWord s
  rw [hs, List.mem_append] at hc
  rcases hc with hc | hc
  · exact Or.inl (hword c hc)
  · exact (of_mem_numeral? h c hc).symm.imp_left isNameChar_of_isDigit

theorem not_mem_of_pin {s : List Char} {n : Nat} (h : numeral? 10 (withoutPinWord s) = some n)
    {c : Char} (hc : isNameChar c = false ∧ c ≠ '+') : c ∉ s := by
  intro hmem
  rcases of_mem_pin h c hmem with hname | hplus
  · rw [hc.1] at hname
    cases hname
  · exact hc.2 hplus

/-- A text that starts with a double quote is a pin only if it ends with another one. -/
theorem of_unquote_pin {rest : List Char} {n : Nat}
    (h : numeral? 10 (withoutPinWord (unquote ('"' :: rest))) = some n) :
    rest = unquote ('"' :: rest) ++ ['"'] := by
  rw [unquote] at h ⊢
  split at h
  case isTrue hlast =>
    rw [if_pos hlast]
    exact (List.dropLast_append_getLast? _ hlast).symm
  case isFalse =>
    exact absurd List.mem_cons_self (not_mem_of_pin h (by decide : isNameChar '"' = false ∧ _))

end StatusPanel
