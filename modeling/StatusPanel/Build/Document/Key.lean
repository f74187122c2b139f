import StatusPanel.Build.Document.Quoted
import StatusPanel.Text.Name

/-!
# Keys of a document

A key is a path of names with dots between them. A name is bare, of letters, digits, underscores
and dashes, or quoted. Gaps of spaces and tabs may stand around the dots.

## Main definitions

* `Document.name?`: the name at the start of a text
* `Document.path?`: the key at the start of a text

## Main results

* `Document.length_of_name?`: a name is not empty, its quotes included
-/

namespace StatusPanel.Document

open Text

/-- Whether a character may stand in a gap. -/
def isGapChar (c : Char) : Bool := c == ' ' || c == '\t'

/-- A text without the gap at its start. -/
def skipGap (s : List Char) : List Char := s.dropWhile isGapChar

/-- The bare name at the start, and what is behind it. -/
def bareName? (s : List Char) : Option (String × List Char) :=
  if s.takeWhile isNameChar = [] then none
  else some (String.ofList (s.takeWhile isNameChar), s.dropWhile isNameChar)

/-- The name at the start, and what is behind it. -/
def name? (s : List Char) : Option (String × List Char) := (quoted? s).or (bareName? s)

theorem length_skipGap_le (s : List Char) : (skipGap s).length ≤ s.length :=
  (List.dropWhile_suffix isGapChar).length_le

theorem length_of_bareName? {s rest : List Char} {name : String}
    (h : bareName? s = some (name, rest)) : rest.length < s.length := by
  unfold bareName? at h
  split at h
  · simp at h
  · rename_i hne
    obtain rfl : s.dropWhile isNameChar = rest := congrArg Prod.snd (Option.some.inj h)
    have hsum := congrArg List.length (List.takeWhile_append_dropWhile (p := isNameChar) (l := s))
    have hpos := List.length_pos_iff.2 hne
    rw [List.length_append] at hsum
    omega

/-- What is behind a name is shorter. -/
theorem length_of_name? {s rest : List Char} {name : String} (h : name? s = some (name, rest)) :
    rest.length < s.length := by
  unfold name? at h
  cases hq : quoted? s with
  | none =>
    rw [hq, Option.none_or] at h
    exact length_of_bareName? h
  | some r =>
    rw [hq, Option.some_or] at h
    obtain rfl := Option.some.inj h
    exact length_of_quoted? hq

/-- The key at the start as its names, and what is behind it and the gap that follows. -/
def path? (s : List Char) : Option (List String × List Char) :=
  match _ : name? s with
  | none => none
  | some (name, rest) =>
    match _ : skipGap rest with
    | '.' :: more => (path? (skipGap more)).map fun r => (name :: r.1, r.2)
    | rest => some ([name], rest)
termination_by s.length
decreasing_by
  rename_i hn hg
  have h₁ := length_of_name? hn
  have h₂ := length_skipGap_le rest
  have h₃ := length_skipGap_le more
  rw [hg, List.length_cons] at h₂
  omega

end StatusPanel.Document
