/-!
# Cutting a text at a character

## Main definitions

* `before`, `behind`: the two parts of a text around the first occurrence of a character
-/

namespace StatusPanel.Text

/-- The part of a text before the first occurrence of a character, or all of it. -/
def before (c : Char) (s : List Char) : List Char :=
  s.takeWhile (· ≠ c)

/-- The part of a text behind the first occurrence of a character, or nothing. -/
def behind (c : Char) (s : List Char) : List Char :=
  (s.dropWhile (· ≠ c)).drop 1

theorem before_eq_self {c : Char} {s : List Char} (h : c ∉ s) : before c s = s := by
  induction s with
  | nil => rfl
  | cons a s ih =>
    simp only [List.mem_cons, not_or] at h
    simp only [before, List.takeWhile_cons, decide_not, Bool.not_eq_true'] at ih ⊢
    rw [if_pos (by simpa using Ne.symm h.1), ih h.2]

end StatusPanel.Text
