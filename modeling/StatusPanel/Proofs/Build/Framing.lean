import Mathlib.Data.List.Forall2
import StatusPanel.Build.Notice
import StatusPanel.Proofs.Text.Written

/-!
# Lines in a frame

The lines of an error message stand in a frame, one below the other. A line is cut at a number of
bytes and padded to a number of characters. No line has more characters than bytes, so what stands
in the frame is as wide as the frame. But a line that would be cut inside a character has no place
there, and then the whole message is lost.

## Main definitions

* `Notice.HasBoundary`: a line with a character that ends at a byte
* `Notice.Fills`: what stands in the frame for a line
* `Notice.enclose`: a line of the frame

## Main results

* `Notice.takeBytes?_eq_some_iff`: the start of a line, up to a byte where a character ends
* `Notice.errorLine?_eq_some_iff`: what a line becomes in the frame
* `Notice.framed_iff`: which messages are framed, and how
* `Notice.not_framed_umlaut`: a message that is lost
-/

namespace StatusPanel.Notice

open Text

/-! ## Bytes and characters -/

@[simp] theorem byteLength_cons (c : Char) (s : List Char) :
    byteLength (c :: s) = c.utf8Size + byteLength s := rfl

/-- No text has more characters than bytes. -/
theorem length_le_byteLength (s : List Char) : s.length ≤ byteLength s := by
  induction s with
  | nil => exact Nat.le_refl 0
  | cons c s ih =>
    have hc := c.utf8Size_pos
    rw [List.length_cons, byteLength_cons]
    omega

/-- Whether a character of a line ends at a byte. -/
def HasBoundary (line : List Char) (size : Nat) : Prop :=
  ∃ start rest, line = start ++ rest ∧ byteLength start = size

/-- The start of a line is taken up to a byte where a character ends. -/
theorem takeBytes?_eq_some_iff {size : Nat} {line start : List Char} :
    takeBytes? size line = some start ↔ ∃ rest, line = start ++ rest ∧ byteLength start = size := by
  -- Induction on the line, character by character, as long as bytes are to be taken.
  fun_induction takeBytes? size line generalizing start with
  | case1 line =>
    constructor
    · intro h
      obtain rfl := Option.some.inj h
      exact ⟨line, rfl, rfl⟩
    · rintro ⟨rest, -, hsize⟩
      have hnil : start = [] :=
        List.eq_nil_of_length_eq_zero (Nat.le_zero.1 (hsize ▸ length_le_byteLength start))
      rw [hnil]
  | case2 n =>
    refine iff_of_false nofun ?_
    rintro ⟨rest, heq, hsize⟩
    obtain ⟨rfl, -⟩ := List.append_eq_nil_iff.1 heq.symm
    cases hsize
  | case3 n c line hfits ih =>
    rw [Option.map_eq_some_iff]
    constructor
    · rintro ⟨start, htake, rfl⟩
      obtain ⟨rest, rfl, hsize⟩ := ih.1 htake
      exact ⟨rest, rfl, by rw [byteLength_cons]; omega⟩
    · rintro ⟨rest, heq, hsize⟩
      cases start with
      | nil => cases hsize
      | cons a start =>
        obtain ⟨rfl, rfl⟩ := List.cons.inj heq
        rw [byteLength_cons] at hsize
        exact ⟨start, ih.2 ⟨rest, rfl, by omega⟩, rfl⟩
  | case4 n c line hlong =>
    -- the first character alone has more bytes than are to be taken
    refine iff_of_false nofun ?_
    rintro ⟨rest, heq, hsize⟩
    cases start with
    | nil => cases hsize
    | cons a start =>
      obtain ⟨rfl, rfl⟩ := List.cons.inj heq
      rw [byteLength_cons] at hsize
      omega

theorem length_padTo {width : Nat} {s : List Char} (h : s.length ≤ width) :
    (padTo width s).length = width := by
  rw [padTo, List.length_append, List.length_replicate]
  omega

/-! ## A line in the frame -/

/-- What stands in the frame for a line, padded with blanks: the line itself if it has no more than
64 bytes, and otherwise its first 61 bytes and three dots. -/
inductive Fills (line : List Char) : List Char → Prop
  | whole (hshort : byteLength line ≤ 64) : Fills line (padTo 64 line)
  | cut {start rest : List Char} (hlong : 64 < byteLength line) (hline : line = start ++ rest)
    (hstart : byteLength start = 61) : Fills line (padTo 64 (start ++ "...".toList))

/-- A text between the borders of the frame. -/
def enclose (content : List Char) : List Char := "║  ".toList ++ content ++ " ║".toList

variable {line content : List Char}

/-- What stands in the frame is as wide as the frame. -/
theorem Fills.length_eq (h : Fills line content) : content.length = 64 := by
  cases h with
  | whole hshort => exact length_padTo (Nat.le_trans (length_le_byteLength line) hshort)
  | @cut start rest hlong hline hstart =>
    have hlength : start.length ≤ 61 := hstart ▸ length_le_byteLength start
    refine length_padTo ?_
    rw [List.length_append]
    exact Nat.add_le_add_right hlength 3

/-- Nothing is put into a line of the frame that would end it. -/
theorem Fills.newline_not_mem (h : Fills line content) (hline : '\n' ∉ line) : '\n' ∉ content := by
  have hpad : ∀ s, '\n' ∉ s → '\n' ∉ padTo 64 s := by
    intro s hs hmem
    rcases List.mem_append.1 hmem with hmem | hmem
    · exact hs hmem
    · exact absurd (List.eq_of_mem_replicate hmem) (by decide)
  cases h with
  | whole => exact hpad line hline
  | cut _ heq =>
    subst heq
    refine hpad _ fun hmem => ?_
    rcases List.mem_append.1 hmem with hmem | hmem
    · exact hline (List.mem_append_left _ hmem)
    · exact absurd hmem (by decide)

theorem exists_fills_iff :
    (∃ content, Fills line content) ↔ (64 < byteLength line → HasBoundary line 61) := by
  constructor
  · rintro ⟨content, hshort | ⟨-, hline, hstart⟩⟩ hlong
    · exact absurd hlong (Nat.not_lt.2 hshort)
    · exact ⟨_, _, hline, hstart⟩
  · intro hboundary
    by_cases hlong : 64 < byteLength line
    · obtain ⟨start, rest, hline, hstart⟩ := hboundary hlong
      exact ⟨_, .cut hlong hline hstart⟩
    · exact ⟨_, .whole (Nat.le_of_not_lt hlong)⟩

/-- What a line becomes in the frame, if it becomes anything. -/
theorem errorLine?_eq_some_iff {framed : List Char} :
    errorLine? line = some framed ↔ ∃ content, Fills line content ∧ enclose content = framed := by
  rw [errorLine?, cutLine?]
  by_cases hlong : lineWidth < byteLength line
  · rw [if_pos hlong, Option.map_map, Option.map_eq_some_iff]
    constructor
    · rintro ⟨start, htake, rfl⟩
      obtain ⟨rest, hline, hstart⟩ := takeBytes?_eq_some_iff.1 htake
      exact ⟨_, .cut hlong hline hstart, rfl⟩
    · rintro ⟨content, hshort | ⟨-, hline, hstart⟩, rfl⟩
      · exact absurd hlong (Nat.not_lt.2 hshort)
      · exact ⟨_, takeBytes?_eq_some_iff.2 ⟨_, hline, hstart⟩, rfl⟩
  · rw [if_neg hlong, Option.map_some, Option.some.injEq]
    constructor
    · rintro rfl
      exact ⟨_, .whole (Nat.le_of_not_lt hlong), rfl⟩
    · rintro ⟨content, hshort | ⟨hlong', -, -⟩, rfl⟩
      · rfl
      · exact absurd hlong' hlong

/-! ## A message in the frame -/

/-- A list is mapped to the list of what its elements are mapped to. -/
theorem mapM_eq_some_iff {α β : Type} {f : α → Option β} {xs : List α} {ys : List β} :
    xs.mapM f = some ys ↔ List.Forall₂ (fun x y => f x = some y) xs ys := by
  induction xs generalizing ys with
  | nil =>
    rw [List.mapM_nil, List.forall₂_nil_left_iff, Option.pure_def, Option.some.injEq, eq_comm]
  | cons x xs ih =>
    rw [List.mapM_cons, List.forall₂_cons_left_iff]
    simp only [Option.bind_eq_bind, Option.bind_eq_some_iff, Option.pure_def, Option.some.injEq, ih]
    grind

/-- A relation finds a partner for every element of a list, one by one. -/
theorem exists_forall₂_iff {α β : Type} {R : α → β → Prop} {xs : List α} :
    (∃ ys, List.Forall₂ R xs ys) ↔ ∀ x ∈ xs, ∃ y, R x y := by
  induction xs with
  | nil => exact iff_of_true ⟨[], .nil⟩ fun _ h => absurd h List.not_mem_nil
  | cons x xs ih =>
    rw [List.forall_mem_cons, ← ih]
    constructor
    · rintro ⟨ys, h⟩
      obtain ⟨y, ys, hy, hys, rfl⟩ := List.forall₂_cons_left_iff.1 h
      exact ⟨⟨y, hy⟩, ys, hys⟩
    · rintro ⟨⟨y, hy⟩, ys, hys⟩
      exact ⟨y :: ys, .cons hy hys⟩

theorem exists_mem_of_forall₂ {α β : Type} {R : α → β → Prop} {xs : List α} {ys : List β}
    (h : List.Forall₂ R xs ys) {y : β} (hy : y ∈ ys) : ∃ x ∈ xs, R x y := by
  induction h with
  | nil => cases hy
  | cons hfirst _ ih =>
    rcases List.mem_cons.1 hy with rfl | hy
    · exact ⟨_, List.mem_cons_self, hfirst⟩
    · obtain ⟨x, hx, hxy⟩ := ih hy
      exact ⟨x, List.mem_cons_of_mem _ hx, hxy⟩

/-- The lines of a message become lines of the frame, one for each. -/
theorem mapM_errorLine?_eq_some_iff {texts framed : List (List Char)} :
    texts.mapM errorLine? = some framed ↔
      ∃ contents, List.Forall₂ Fills texts contents ∧ contents.map enclose = framed := by
  rw [mapM_eq_some_iff]
  constructor
  · intro h
    induction h with
    | nil => exact ⟨[], .nil, rfl⟩
    | cons hline _ ih =>
      obtain ⟨content, hfills, rfl⟩ := errorLine?_eq_some_iff.1 hline
      obtain ⟨contents, hcontents, rfl⟩ := ih
      exact ⟨content :: contents, .cons hfills hcontents, rfl⟩
  · rintro ⟨contents, hcontents, rfl⟩
    rw [List.forall₂_map_right_iff]
    exact hcontents.imp fun _ _ hfills => errorLine?_eq_some_iff.2 ⟨_, hfills, rfl⟩

theorem errorLines?_eq_some_iff {message text : String} :
    errorLines? message = some text ↔
      ∃ contents, List.Forall₂ Fills (lines message.toList) contents ∧
        ['\n'].intercalate (contents.map enclose) = text.toList := by
  have hjoin : ∀ framed : List (List Char),
      String.intercalate "\n" (framed.map String.ofList) = text ↔
        ['\n'].intercalate framed = text.toList := by
    intro framed
    rw [← String.toList_inj, String.toList_intercalate, List.map_map]
    simp
  rw [errorLines?, Option.map_eq_some_iff]
  simp only [mapM_errorLine?_eq_some_iff, hjoin]
  grind

/-- Lines of the frame that were put together are the lines of the text. -/
theorem lines_intercalate_enclose {texts contents : List (List Char)}
    (h : List.Forall₂ Fills texts contents) (htexts : ∀ text ∈ texts, '\n' ∉ text) :
    lines (['\n'].intercalate (contents.map enclose)) = contents.map enclose := by
  refine lines_intercalate fun framed hmem => ?_
  obtain ⟨content, hcontent, rfl⟩ := List.mem_map.1 hmem
  obtain ⟨text, htext, hfills⟩ := exists_mem_of_forall₂ h hcontent
  -- no line of the frame ends like a line end, as its last character is the border
  have hborder : " ║".toList.getLast? = some '║' := by decide
  refine ⟨?_, ?_, ?_⟩
  · rw [enclose, List.mem_append, List.mem_append, not_or, not_or]
    exact ⟨⟨by decide, hfills.newline_not_mem (htexts text htext)⟩, by decide⟩
  · exact List.append_ne_nil_of_right_ne_nil _ (by decide)
  · rw [enclose, List.getLast?_append, hborder, Option.some_or]
    decide

/-- **Which error messages are framed, and how.** A message is framed exactly if in each of its
lines with more than 64 bytes a character ends at byte 61. The text then has a line for each line of
the message: between the borders of the frame stand 64 characters, which are the line itself and
blanks if it has no more than 64 bytes, and otherwise its first 61 bytes, three dots and blanks. -/
theorem framed_iff (message : String) :
    ((∃ text, errorLines? message = some text) ↔
        ∀ line ∈ lines message.toList, 64 < byteLength line → HasBoundary line 61) ∧
      ∀ text, errorLines? message = some text →
        ∃ contents, lines text.toList = contents.map enclose ∧
          List.Forall₂ Fills (lines message.toList) contents ∧
          ∀ content ∈ contents, content.length = 64 := by
  constructor
  · -- the message is framed if each line is, and a line is if it may be cut
    simp only [← exists_fills_iff]
    rw [← exists_forall₂_iff]
    constructor
    · rintro ⟨text, htext⟩
      obtain ⟨contents, hcontents, -⟩ := errorLines?_eq_some_iff.1 htext
      exact ⟨contents, hcontents⟩
    · rintro ⟨contents, hcontents⟩
      exact ⟨String.ofList (['\n'].intercalate (contents.map enclose)),
        errorLines?_eq_some_iff.2 ⟨contents, hcontents, by simp⟩⟩
  · intro text htext
    obtain ⟨contents, hcontents, hjoin⟩ := errorLines?_eq_some_iff.1 htext
    refine ⟨contents, ?_, hcontents, fun content hcontent => ?_⟩
    · rw [← hjoin]
      exact lines_intercalate_enclose hcontents fun text => newline_not_mem_of_mem_lines
    · obtain ⟨line, -, hfills⟩ := exists_mem_of_forall₂ hcontents hcontent
      exact hfills.length_eq

/-- A short line, and one of 66 characters. -/
def twoLines : String := "unexpected key\n" ++ String.ofList (List.replicate 66 'x')

/-- Both lines are framed: the short one as it is, and of the long one as much as there is room. -/
theorem framed_twoLines :
    ∃ text, errorLines? twoLines = some text ∧
      ∃ first second, lines text.toList = [enclose first, enclose second] ∧
        first = "unexpected key".toList ++ List.replicate 50 ' ' ∧ second.length = 64 := by
  have hlines : lines twoLines.toList = ["unexpected key".toList, List.replicate 66 'x'] := by
    decide +kernel
  obtain ⟨hframed, htexts⟩ := framed_iff twoLines
  rw [hlines] at hframed htexts
  have hboundary : ∀ line ∈ ["unexpected key".toList, List.replicate 66 'x'],
      64 < byteLength line → HasBoundary line 61 := by
    rw [List.forall_mem_cons, List.forall_mem_singleton]
    exact ⟨fun hlong => absurd hlong (by decide),
      fun _ => ⟨List.replicate 61 'x', List.replicate 5 'x', by decide, by decide⟩⟩
  obtain ⟨text, htext⟩ := hframed.2 hboundary
  obtain ⟨contents, htextLines, hcontents, hlength⟩ := htexts text htext
  obtain ⟨first, rest, hfirst, hrest, rfl⟩ := List.forall₂_cons_left_iff.1 hcontents
  obtain ⟨second, nothing, -, hnothing, rfl⟩ := List.forall₂_cons_left_iff.1 hrest
  obtain rfl := List.forall₂_nil_left_iff.1 hnothing
  refine ⟨text, htext, first, second, htextLines, ?_, hlength second (by simp)⟩
  cases hfirst with
  | whole => decide
  | cut hlong => exact absurd hlong (by decide)

/-- A message that quotes a line with a character of two bytes, the first of which is byte 61. -/
def umlaut : String :=
  "TOML parse error at line 1, column 11\n  |\n" ++
    "1 | led_pin = \"GP15   # Leuchte vorn am Rand, Deckel des Gehäuses offen\n" ++
    "  |           ^\ninvalid basic string\n"

/-- That message is lost, though every message should be framed. -/
theorem not_framed_umlaut :
    errorLines? umlaut = none ∧ malformed? umlaut = none ∧
      ¬∀ message, ∃ text, errorLines? message = some text := by
  have hlost : errorLines? umlaut = none := by decide +kernel
  refine ⟨hlost, by rw [malformed?, hlost, Option.map_none], fun hall => ?_⟩
  obtain ⟨text, htext⟩ := hall umlaut
  rw [hlost] at htext
  cases htext

end StatusPanel.Notice
