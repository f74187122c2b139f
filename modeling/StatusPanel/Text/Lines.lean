/-!
# Lines of a text

A line feed ends a line, and a carriage return right before it belongs to the end. Text after the
last line feed is one more line, kept as it stands.

## Main definitions

* `pieces`: the text cut behind every line feed, ends included
* `withoutEnd`: a piece without its line end
* `lines`: the lines of a text

## Main results

* `flatten_pieces`: cutting loses no character
-/

namespace StatusPanel.Text

/-- Puts a character in front of the first piece, or makes it the only piece. -/
def consFirst (c : Char) : List (List Char) → List (List Char)
  | [] => [[c]]
  | piece :: rest => (c :: piece) :: rest

/-- A text cut behind every line feed. -/
def pieces : List Char → List (List Char)
  | [] => []
  | c :: rest => if c = '\n' then [c] :: pieces rest else consFirst c (pieces rest)

/-- A text without one carriage return at its end. -/
def withoutReturn (s : List Char) : List Char :=
  if s.getLast? = some '\r' then s.dropLast else s

/-- A piece without its line feed and without the carriage return before that. -/
def withoutEnd (piece : List Char) : List Char :=
  if piece.getLast? = some '\n' then withoutReturn piece.dropLast else piece

/-- The lines of a text, without their ends. -/
def lines (s : List Char) : List (List Char) :=
  (pieces s).map withoutEnd

@[simp] theorem lines_nil : lines [] = [] := rfl

theorem flatten_consFirst (c : Char) (ps : List (List Char)) :
    (consFirst c ps).flatten = c :: ps.flatten := by
  cases ps <;> simp [consFirst]

/-- Cutting loses no character. -/
theorem flatten_pieces (s : List Char) : (pieces s).flatten = s := by
  induction s with
  | nil => rfl
  | cons c rest ih => by_cases h : c = '\n' <;> simp [pieces, h, flatten_consFirst, ih]

end StatusPanel.Text
