import StatusPanel.Build.Checks
import StatusPanel.Proofs.Build.PlainValue

/-!
# The plain text of a document

A document of numbers, truth values and quoted text, at the root or one table deep, has a plain
text: the entries of the root, and then each table behind a header with its name, an entry to a
line. The settings reader takes the line of an entry for an assignment, and accepts it if the key
names no field, or one that the value fits.

## Main definitions

* `Document.keyText`, `Document.entryLine`, `Document.headerLine`: how keys, entries and headers are
  written
* `Document.plainText`: the text of a document

## Main results

* `Document.ofText_entryLine_of_isBare`, `Document.ofText_entryLine_of_not_isBare`: what the line of
  an entry is taken for
* `Document.accepts_entryLine_cons`, `Document.ofText_headerLine`: when a line is accepted
-/

namespace StatusPanel.Document

open Text

open SettingsLine (withoutComment)

/-! ## Writing -/

/-- Whether a key needs no quotes. -/
def isBare (key : List Char) : Bool := key != [] && key.all isNameChar

/-- A key, between quotes if it needs them. -/
def keyText (key : String) : List Char := if isBare key.toList then key.toList else quote key.toList

/-- The line of an entry. -/
def entryLine (entry : String × Value) : List Char :=
  keyText entry.1 ++ ' ' :: '=' :: ' ' :: valueText entry.2

/-- The header of a table. -/
def headerLine (name : String) : List Char := '[' :: (keyText name ++ [']'])

/-- The lines of a table behind its header. -/
def tableLines : String × Value → List (List Char)
  | (name, .table entries) => headerLine name :: entries.map entryLine
  | _ => []

/-- The lines of a document: the entries of the root, and then the tables. -/
def plainLines (entries : List (String × Value)) : List (List Char) :=
  (entries.filter fun entry => !entry.2.isTable).map entryLine ++ entries.flatMap tableLines

/-- The plain text of a document. -/
def plainText (entries : List (String × Value)) : String :=
  String.ofList (unlines (plainLines entries))

theorem of_isBare {key : List Char} (h : isBare key = true) :
    key ≠ [] ∧ ∀ c ∈ key, isNameChar c = true := by
  simpa [isBare] using h

/-! ## Lines -/

/-- A written value is not empty, has no blank at either end and stands in one line. -/
theorem trimmed_valueText {value : Value} (hscalar : value.isScalar = true) :
    valueText value ≠ [] ∧ Trimmed (valueText value) ∧ '\n' ∉ valueText value := by
  by_cases hstring : ∃ text, value = .string text
  · obtain ⟨text, rfl⟩ := hstring
    exact ⟨List.cons_ne_nil _ _, trimmed_quote _, newline_not_mem_quote _⟩
  · obtain ⟨hne, hname⟩ := isNameChar_valueText hscalar (not_exists.1 hstring)
    exact ⟨hne, trimmed_of_isNameChar hname, not_mem_of_isNameChar hname (by decide)⟩

/-- A written key starts as no other line does. -/
theorem keyText_eq_cons (key : String) :
    ∃ c rest, keyText key = c :: rest ∧ isBlank c = false ∧ c ≠ '#' ∧ c ≠ '[' ∧
      '\n' ∉ keyText key := by
  unfold keyText
  split
  case isTrue hbare =>
    obtain ⟨hne, hname⟩ := of_isBare hbare
    obtain ⟨c, rest, heq⟩ := List.exists_cons_of_ne_nil hne
    have hc : isNameChar c = true := hname c (heq ▸ List.mem_cons_self)
    refine ⟨c, rest, heq, isBlank_of_isNameChar hc, ?_, ?_, not_mem_of_isNameChar hname (by decide)⟩
    · rintro rfl
      exact absurd hc (by decide)
    · rintro rfl
      exact absurd hc (by decide)
  case isFalse =>
    exact ⟨'"', _, rfl, by decide, by decide, by decide, newline_not_mem_quote _⟩

section

variable {entry : String × Value} (hscalar : entry.2.isScalar = true)

include hscalar

theorem trimmed_entryLine : Trimmed (entryLine entry) where
  head c hc := by
    obtain ⟨a, rest, hkey, ha, -⟩ := keyText_eq_cons entry.1
    rw [entryLine, hkey] at hc
    exact Option.some.inj hc ▸ ha
  last c hc := by
    obtain ⟨hne, htrimmed, -⟩ := trimmed_valueText hscalar
    refine htrimmed.last c ?_
    rw [entryLine, List.getLast?_append, List.getLast?_cons_cons, List.getLast?_cons_cons,
      List.getLast?_cons] at hc
    obtain ⟨last, hlast⟩ := Option.ne_none_iff_exists'.1 (mt List.getLast?_eq_none_iff.1 hne)
    rw [hlast] at hc ⊢
    exact hc

theorem newline_not_mem_entryLine : '\n' ∉ entryLine entry := by
  obtain ⟨-, -, -, -, -, -, hkey⟩ := keyText_eq_cons entry.1
  obtain ⟨-, -, hvalue⟩ := trimmed_valueText hscalar
  simp only [entryLine, List.mem_append, List.mem_cons, not_or]
  exact ⟨hkey, by decide, by decide, by decide, hvalue⟩

/-- The line of an entry is taken for an assignment. -/
theorem ofText_entryLine :
    SettingsLine.ofText (entryLine entry) = SettingsLine.ofAssignment (entryLine entry) := by
  obtain ⟨c, rest, hkey, -, hhash, hbracket, -⟩ := keyText_eq_cons entry.1
  have hline : entryLine entry = c :: (rest ++ ' ' :: '=' :: ' ' :: valueText entry.2) := by
    rw [entryLine, hkey]
    rfl
  rw [SettingsLine.ofText, trim_of_trimmed (trimmed_entryLine hscalar), hline]
  split
  case h_1 heq => cases heq
  case h_2 heq => exact absurd (List.cons.inj heq).1 hhash
  case h_3 heq => exact absurd (List.cons.inj heq).1 hbracket
  case h_4 => rfl

/-- A key that needs no quotes is assigned its value. -/
theorem ofText_entryLine_of_isBare (hbare : isBare entry.1.toList = true) :
    SettingsLine.ofText (entryLine entry) =
      .assign entry.1.toList (withoutComment (valueText entry.2)) := by
  obtain ⟨hne, hname⟩ := of_isBare hbare
  obtain ⟨hvalue, htrimmed, -⟩ := trimmed_valueText hscalar
  have hline : entryLine entry =
      (entry.1.toList ++ [' ']) ++ '=' :: ' ' :: valueText entry.2 := by
    rw [entryLine, keyText, if_pos hbare, List.append_assoc]
    rfl
  have hequals : '=' ∉ entry.1.toList ++ [' '] := by
    rw [List.mem_append, not_or]
    exact ⟨not_mem_of_isNameChar hname (by decide), by decide⟩
  have hspace : ∀ c ∈ [' '], isBlank c = true := List.forall_mem_singleton.2 (by decide)
  have hkey : trim (before '=' (entryLine entry)) = entry.1.toList := by
    rw [hline, before_append hequals, trim_append_blanks hspace]
    exact trim_of_trimmed (trimmed_of_isNameChar hname)
  have hbehind : trim (behind '=' (entryLine entry)) = valueText entry.2 := by
    rw [hline, behind_append hequals, ← List.singleton_append, trim_blanks_append hspace,
      trim_of_trimmed htrimmed]
  have hmem : '=' ∈ entryLine entry := by
    rw [hline]
    exact List.mem_append_right _ List.mem_cons_self
  have hassigned : withoutComment (valueText entry.2) ≠ [] := by
    by_cases hstring : ∃ text, entry.2 = .string text
    · obtain ⟨text, htext⟩ := hstring
      obtain ⟨rest, heq, -⟩ := withoutComment_quote text.toList
      rw [htext, valueText, heq]
      exact List.cons_ne_nil _ _
    · obtain ⟨-, hplain⟩ := isNameChar_valueText hscalar (not_exists.1 hstring)
      rwa [withoutComment_of_trimmed htrimmed (not_mem_of_isNameChar hplain (by decide))]
  rw [ofText_entryLine hscalar, SettingsLine.ofAssignment, hkey, hbehind, if_neg]
  simp [hmem, hne, hassigned]

omit hscalar in
/-- No field has a name with a quote at its start. -/
theorem named?_quote (owner : Section) (rest : List Char) :
    Field.named? owner ('"' :: rest) = none := by
  have hnames : ∀ f : Field, ∀ name ∈ f.names, name.toList.head? ≠ some '"' := by
    intro f
    cases f <;> decide
  refine Option.eq_none_iff_forall_ne_some.2 fun f hf => ?_
  obtain ⟨-, name, hname, heq⟩ := Field.of_named? hf
  exact hnames f name hname (heq ▸ rfl)

omit hscalar in
/-- The name of a field needs no quotes. -/
theorem isBare_of_named? {owner : Section} {key : List Char} {f : Field}
    (h : Field.named? owner key = some f) : isBare key = true := by
  have hnames : ∀ f : Field, ∀ name ∈ f.names, isBare name.toList = true := by
    intro f
    cases f <;> decide
  obtain ⟨-, name, hname, rfl⟩ := Field.of_named? h
  exact hnames f name hname

/-- A key between quotes is no key of the settings, whatever its line is taken for. -/
theorem ofText_entryLine_of_not_isBare (hquoted : isBare entry.1.toList = false) :
    SettingsLine.ofText (entryLine entry) = .silent ∨
      ∃ rest value, SettingsLine.ofText (entryLine entry) = .assign ('"' :: rest) value := by
  rw [ofText_entryLine hscalar, SettingsLine.ofAssignment]
  split
  case isTrue => exact Or.inl rfl
  case isFalse =>
    have hline : entryLine entry = '"' :: (entryLine entry).tail := by
      rw [entryLine, keyText, if_neg (Bool.eq_false_iff.1 hquoted)]
      rfl
    have hbefore : before '=' (entryLine entry) = '"' :: before '=' (entryLine entry).tail := by
      rw [hline]
      rfl
    obtain ⟨rest, hrest, -⟩ := trim_cons (a := '"') (by decide) (before '=' (entryLine entry).tail)
    rw [hbefore, hrest]
    exact Or.inr ⟨rest, _, rfl⟩

/-- **Written entries.** The line of an entry is accepted if its key names no field, or one that the
value fits. -/
theorem accepts_entryLine_cons {owner : Section} {rest : List (List Char)} :
    Reading.Accepts owner (entryLine entry :: rest) ↔
      (∀ f, Field.named? owner entry.1.toList = some f → entry.2.Fits f.kind) ∧
        Reading.Accepts owner rest := by
  rw [Reading.accepts_cons]
  cases hbare : isBare entry.1.toList with
  | true =>
    rw [ofText_entryLine_of_isBare hscalar hbare]
    simp only [reads_valueText_iff hscalar]
  | false =>
    have hnone : ∀ f, Field.named? owner entry.1.toList ≠ some f := by
      intro f hf
      rw [isBare_of_named? hf] at hbare
      cases hbare
    obtain hsilent | ⟨text, value, hassign⟩ := ofText_entryLine_of_not_isBare hscalar hbare
    · rw [hsilent]
      simp [hnone]
    · rw [hassign]
      simp [hnone, named?_quote]

end

/-- The headers of the sections of the settings open them. -/
theorem ofText_headerLine {name : String} (h : name ∈ Checks.sectionNames) :
    ∃ owner, Section.named? name.toList = some owner ∧
      SettingsLine.ofText (headerLine name) = .header (some owner) := by
  simp only [Checks.sectionNames, List.mem_cons, List.not_mem_nil, or_false] at h
  obtain rfl | rfl | rfl | rfl := h
  · exact ⟨.display, by decide, by decide⟩
  · exact ⟨.timing, by decide, by decide⟩
  · exact ⟨.typing, by decide, by decide⟩
  · exact ⟨.lighting, by decide, by decide⟩

end StatusPanel.Document
