import StatusPanel.Proofs.Settings.Keys
import StatusPanel.Proofs.Settings.Spelling

/-!
# Renderings of settings

Settings can be written in many ways: the sections in any order, the fields of each in any order
and under any of their names, each value in any of its spellings, with gaps around the parts of a
line, with comments behind the entries, and with comments and blank lines between them. All these
texts are renderings of the same settings, and reading any of them gives these settings back.

The relation between settings and texts has three layers, as the reader has: the parts of a line,
the order of the lines, and the ends of the lines.

## Main definitions

* `Gap`, `Filler`: spaces and tabs, and what may stand behind an entry or fill a line
* `TextEntry`, `WritesEntry`: headers and fields, and the lines that write them
* `Arrangement`: an order of the sections and of the fields of each
* `WritesLines`, `Joins`: lines that write entries, and a text of these lines
* `Settings.Renders`: whether a text renders settings
* `Settings.render`: the plain rendering in an arrangement

## Main results

* `Reading.step_of_writesEntry`: the effect of one line of a rendering
* `Reading.steps_of_writesLines`: the effect of all its lines
* `Settings.renders_render`: all settings have renderings
* `Settings.read_of_renders`: a rendering of settings is read as these settings
-/

namespace StatusPanel

open Text

/-! ## The parts of a line -/

/-- Spaces and tabs. -/
def Gap (g : List Char) : Prop := ∀ c ∈ g, c = ' ' ∨ c = '\t'

instance : DecidablePred Gap := fun g =>
  decidable_of_iff (g.all fun c => c = ' ' || c = '\t') (by simp [Gap])

/-- What may stand behind an entry or fill a line: a gap, and a comment after it. -/
inductive Filler : List Char → Prop
  | gap {g : List Char} (hg : Gap g) : Filler g
  | comment {g text : List Char} (hg : Gap g) (htext : '\n' ∉ text) : Filler (g ++ '#' :: text)

theorem Gap.blank {g : List Char} (h : Gap g) : ∀ c ∈ g, isBlank c = true := by
  intro c hc
  rcases h c hc with rfl | rfl <;> decide

theorem Gap.not_mem {g : List Char} (h : Gap g) {c : Char} (hc : isBlank c = false) : c ∉ g := by
  intro hmem
  rw [h.blank c hmem] at hc
  cases hc

theorem Gap.newline {g : List Char} (h : Gap g) : '\n' ∉ g := by
  intro hmem
  rcases h '\n' hmem with hc | hc <;> cases hc

namespace Filler

variable {tail : List Char}

theorem newline (h : Filler tail) : '\n' ∉ tail := by
  cases h with
  | gap hg => exact hg.newline
  | comment hg htext => simp [hg.newline, htext]

/-- A filler without the blanks at its end is a filler. -/
theorem trimEnd (h : Filler tail) : Filler (trimEnd tail) := by
  cases h with
  | gap hg =>
    rw [← List.nil_append tail, trimEnd_append_blanks hg.blank]
    exact .gap nofun
  | @comment g text hg htext =>
    have hlast : ∀ c ∈ (g ++ ['#']).getLast?, isBlank c = false := by
      intro c hc
      rw [List.getLast?_concat] at hc
      obtain rfl := Option.some.inj hc
      decide
    -- the hash sign is no blank, so trimming stops behind it at the latest
    rw [List.append_cons, trimEnd_append_of_last (by simp) hlast, ← List.append_cons]
    exact .comment hg fun hmem => htext ((trimEnd_prefix_self text).subset hmem)

/-- No part of a filler that is left counts, except a gap. -/
theorem before_append (h : Filler tail) {s : List Char} (hs : '#' ∉ s) :
    ∃ g, Gap g ∧ before '#' (s ++ tail) = s ++ g := by
  cases h with
  | gap hg =>
    refine ⟨tail, hg, before_eq_self ?_⟩
    rw [List.mem_append, not_or]
    exact ⟨hs, hg.not_mem (by decide)⟩
  | @comment g text hg htext =>
    refine ⟨g, hg, ?_⟩
    have hhash : '#' ∉ s ++ g := by
      rw [List.mem_append, not_or]
      exact ⟨hs, hg.not_mem (by decide)⟩
    rw [← List.append_assoc, Text.before_append hhash]

/-- Gaps and a filler around a text leave a filler behind it when the line is trimmed. -/
theorem trim_line (h : Filler tail) {g s : List Char} (hg : Gap g) (hne : s ≠ [])
    (hs : Trimmed s) : ∃ tail', Filler tail' ∧ trim (g ++ (s ++ tail)) = s ++ tail' :=
  ⟨_, h.trimEnd, by rw [trim_blanks_append hg.blank, trim_append hne hs]⟩

/-- A filler in a line of its own says nothing. -/
theorem ofText (h : Filler tail) : SettingsLine.ofText tail = .silent := by
  cases h with
  | gap hg =>
    have hnil : trim tail = [] := trim_append_blanks hg.blank []
    rw [SettingsLine.ofText, hnil]
  | @comment g text hg htext =>
    obtain ⟨rest, hrest, -⟩ := trim_cons (a := '#') (by decide) text
    rw [SettingsLine.ofText, trim_blanks_append hg.blank, hrest]
    rfl

end Filler

/-! ### Entries -/

/-- What a line of a rendering writes. -/
inductive TextEntry
  | header (opened : Section)
  | field (f : Field)
  deriving DecidableEq, Repr

/-- The name of a section between brackets. -/
def headerText (owner : Section) (g₁ g₂ : List Char) : List Char :=
  '[' :: (g₁ ++ owner.title.toList ++ g₂ ++ [']'])

/-- A value assigned to a name. -/
def fieldText (name : String) (g₁ g₂ value : List Char) : List Char :=
  name.toList ++ g₁ ++ '=' :: (g₂ ++ value)

/-- The lines that write an entry of settings. -/
inductive WritesEntry (s : Settings) : TextEntry → List Char → Prop
  | header {owner : Section} (htitled : owner ≠ .root) {g g₁ g₂ tail : List Char} (hg : Gap g)
      (h₁ : Gap g₁) (h₂ : Gap g₂) (htail : Filler tail) :
      WritesEntry s (.header owner) (g ++ (headerText owner g₁ g₂ ++ tail))
  | field {f : Field} {name : String} (hname : name ∈ f.names) {value : List Char}
      (hvalue : f.kind.Writes (s.get f) value) {g g₁ g₂ tail : List Char} (hg : Gap g)
      (h₁ : Gap g₁) (h₂ : Gap g₂) (htail : Filler tail) :
      WritesEntry s (.field f) (g ++ (fieldText name g₁ g₂ value ++ tail))

/-! ### Headers -/

theorem trimmed_headerText (owner : Section) (g₁ g₂ : List Char) :
    Trimmed (headerText owner g₁ g₂) := by
  constructor
  case head =>
    intro c hc
    obtain rfl := Option.some.inj hc
    decide
  case last =>
    intro c hc
    rw [headerText, ← List.cons_append, List.getLast?_concat] at hc
    obtain rfl := Option.some.inj hc
    decide

theorem not_mem_headerText {owner : Section} {g₁ g₂ : List Char} {c : Char}
    (hname : isNameChar c = false) (hopen : c ≠ '[') (hclose : c ≠ ']') (h₁ : c ∉ g₁)
    (h₂ : c ∉ g₂) : c ∉ headerText owner g₁ g₂ := by
  have htitle := not_mem_of_isNameChar owner.title_isNameChar hname
  simp [headerText, htitle, hopen, hclose, h₁, h₂]

/-- A line that writes a header opens its section. -/
theorem ofText_header {owner : Section} (htitled : owner ≠ .root) {g g₁ g₂ tail : List Char}
    (hg : Gap g) (h₁ : Gap g₁) (h₂ : Gap g₂) (htail : Filler tail) :
    SettingsLine.ofText (g ++ (headerText owner g₁ g₂ ++ tail)) = .header (some owner) := by
  have htrimmed := trimmed_headerText owner g₁ g₂
  have hne : headerText owner g₁ g₂ ≠ [] := List.cons_ne_nil _ _
  obtain ⟨tail', htail', hline⟩ := htail.trim_line hg hne htrimmed
  have hhash : '#' ∉ headerText owner g₁ g₂ :=
    not_mem_headerText (by decide) (by decide) (by decide) (h₁.not_mem (by decide))
      (h₂.not_mem (by decide))
  obtain ⟨gap, hgap, hbefore⟩ := htail'.before_append hhash
  -- the name is what is left between the brackets without the comment and the gaps
  have hname : SettingsLine.headerName? (headerText owner g₁ g₂ ++ tail') =
      some owner.title.toList := by
    rw [SettingsLine.headerName?, hbefore, trimEnd_append_blanks hgap.blank,
      trimEnd_of_last htrimmed.last]
    simp only [headerText, List.getLast?_concat, if_true, List.dropLast_concat]
    rw [trim_append_blanks h₂.blank, trim_blanks_append h₁.blank,
      trim_of_trimmed (trimmed_of_isNameChar owner.title_isNameChar)]
  have hopened := congrArg (Option.bind · Section.named?) hname
  rw [SettingsLine.ofText, hline, ← Section.named?_title htitled]
  exact congrArg SettingsLine.header hopened

/-! ### Fields -/

/-- A comment behind a value and the gap before the comment are not part of the value. -/
theorem Plain.withoutComment {value tail : List Char} (h : Plain value) (htail : Filler tail) :
    SettingsLine.withoutComment (value ++ tail) = value := by
  obtain ⟨g, hg, hbefore⟩ := htail.before_append h.hash
  have hquotes : (value ++ g).count '"' % 2 = 0 := by
    have hgap : '"' ∉ g := hg.not_mem (by decide)
    rw [List.count_append, List.count_eq_zero_of_not_mem hgap]
    exact h.quotes
  rw [SettingsLine.withoutComment, hbefore, if_pos hquotes, trim_append_blanks hg.blank,
    trim_of_trimmed h.trimmed]

section

variable {f : Field} {name : String} (hname : name ∈ f.names) {value : List Char}
  (hvalue : Plain value) {g₁ g₂ : List Char} (h₁ : Gap g₁) (h₂ : Gap g₂)

include hname hvalue

theorem trimmed_fieldText : Trimmed (fieldText name g₁ g₂ value) := by
  obtain ⟨hne, hchars⟩ := f.names_isNameChar name hname
  constructor
  case head =>
    intro c hc
    rw [fieldText, List.append_assoc, List.head?_append_of_ne_nil _ hne] at hc
    exact isBlank_of_isNameChar (hchars c (List.mem_of_head? hc))
  case last =>
    intro c hc
    rw [fieldText, ← List.cons_append, ← List.append_assoc,
      List.getLast?_append_of_ne_nil _ hvalue.ne_nil] at hc
    exact hvalue.trimmed.last c hc

include h₁ h₂

theorem ofAssignment_fieldText {tail : List Char} (htail : Filler tail) :
    SettingsLine.ofAssignment (fieldText name g₁ g₂ value ++ tail) =
      .assign name.toList value := by
  obtain ⟨hne, hchars⟩ := f.names_isNameChar name hname
  -- the line is cut at its first equals sign, and neither the name nor the gap has one
  have hequals : '=' ∉ name.toList ++ g₁ := by
    rw [List.mem_append, not_or]
    exact ⟨not_mem_of_isNameChar hchars (by decide), h₁.not_mem (by decide)⟩
  have hparts : fieldText name g₁ g₂ value ++ tail =
      (name.toList ++ g₁) ++ '=' :: (g₂ ++ (value ++ tail)) := by
    simp [fieldText]
  have hkey : trim (before '=' (fieldText name g₁ g₂ value ++ tail)) = name.toList := by
    rw [hparts, before_append hequals, trim_append_blanks h₁.blank]
    exact trim_of_trimmed (trimmed_of_isNameChar hchars)
  obtain ⟨tail', htail', hbehind⟩ := htail.trim_line h₂ hvalue.ne_nil hvalue.trimmed
  rw [SettingsLine.ofAssignment, hkey, hparts, behind_append hequals, hbehind,
    hvalue.withoutComment htail', if_neg]
  simp [hne, hvalue.ne_nil]

/-- A line that writes a field assigns it the text of its value. -/
theorem ofText_field {g tail : List Char} (hg : Gap g) (htail : Filler tail) :
    SettingsLine.ofText (g ++ (fieldText name g₁ g₂ value ++ tail)) =
      .assign name.toList value := by
  obtain ⟨hne, hchars⟩ := f.names_isNameChar name hname
  have hcore : fieldText name g₁ g₂ value ≠ [] := by simp [fieldText]
  obtain ⟨tail', htail', hline⟩ :=
    htail.trim_line hg hcore (trimmed_fieldText hname hvalue)
  rw [SettingsLine.ofText, hline, ← ofAssignment_fieldText hname hvalue h₁ h₂ htail']
  obtain ⟨a, rest, ha⟩ := List.exists_cons_of_ne_nil hne
  have hstart : isNameChar a = true := hchars a (ha ▸ List.mem_cons_self)
  rw [fieldText, ha]
  -- the first character is one of a name, so the line is neither a comment nor a header
  split
  case h_1 heq => cases heq
  case h_2 heq =>
    obtain rfl := (List.cons.inj heq).1
    cases hstart
  case h_3 heq =>
    obtain rfl := (List.cons.inj heq).1
    cases hstart
  case h_4 => rfl

end

/-- No line of a rendering has a line feed in it. -/
theorem WritesEntry.newline {s : Settings} {e : TextEntry} {text : List Char}
    (h : WritesEntry s e text) : '\n' ∉ text := by
  cases h with
  | @header owner htitled g g₁ g₂ tail hg h₁ h₂ htail =>
    have hheader : '\n' ∉ headerText owner g₁ g₂ :=
      not_mem_headerText (by decide) (by decide) (by decide) h₁.newline h₂.newline
    simp [hg.newline, hheader, htail.newline]
  | @field f name hname value hvalue g g₁ g₂ tail hg h₁ h₂ htail =>
    have hchars := (f.names_isNameChar name hname).2
    have hkey := not_mem_of_isNameChar hchars (c := '\n') (by decide)
    have hplain := (ValueKind.plain_of_writes hvalue).newline
    simp [fieldText, hg.newline, hkey, h₁.newline, h₂.newline, hplain, htail.newline]

/-! ## The order of the lines -/

/-- The fields of a section. -/
def Section.fields (owner : Section) : List Field := Field.all.filter (·.owner = owner)

/-- An order of the sections of a text, and of the fields of each. -/
structure Arrangement where
  sections : List Section
  fields : Section → List Field
  /-- Every section but the root has one header. -/
  perm_sections : sections.Perm [.display, .timing, .typing, .lighting]
  /-- Every field stands once in its section. -/
  perm_fields : ∀ owner, (fields owner).Perm owner.fields

namespace Arrangement

/-- The entries of a section, behind its header. -/
def sectionEntries (a : Arrangement) (owner : Section) : List TextEntry :=
  (a.fields owner).map .field

/-- The entries of a text: those of the root come before the first header. -/
def entries (a : Arrangement) : List TextEntry :=
  a.sectionEntries .root ++ a.sections.flatMap fun owner => .header owner :: a.sectionEntries owner

theorem mem_fields (a : Arrangement) {owner : Section} {f : Field} :
    f ∈ a.fields owner ↔ f.owner = owner := by
  rw [(a.perm_fields owner).mem_iff, Section.fields, List.mem_filter, decide_eq_true_eq]
  exact and_iff_right f.mem_all

/-- Every field has an entry. -/
theorem mem_entries (a : Arrangement) (f : Field) : .field f ∈ a.entries := by
  have hfield : TextEntry.field f ∈ a.sectionEntries f.owner :=
    List.mem_map_of_mem (a.mem_fields.2 rfl)
  rw [entries, List.mem_append, List.mem_flatMap]
  by_cases hroot : f.owner = .root
  · exact Or.inl (hroot ▸ hfield)
  · refine Or.inr ⟨f.owner, ?_, List.mem_cons_of_mem _ hfield⟩
    rw [a.perm_sections.mem_iff]
    revert hroot
    generalize f.owner = owner
    cases owner <;> decide

end Arrangement

/-- Whether every field stands in its section, when a section is open at the start. -/
def Placed : Section → List TextEntry → Prop
  | _, [] => True
  | _, .header owner :: rest => Placed owner rest
  | owner, .field f :: rest => f.owner = owner ∧ Placed owner rest

theorem placed_sectionEntries (a : Arrangement) (owner : Section) {rest : List TextEntry}
    (hrest : Placed owner rest) : Placed owner (a.sectionEntries owner ++ rest) := by
  have hfields : ∀ f ∈ a.fields owner, f.owner = owner := fun f hf => a.mem_fields.1 hf
  unfold Arrangement.sectionEntries
  revert hfields
  induction a.fields owner with
  | nil => exact fun _ => hrest
  | cons f fields ih =>
    intro hfields
    obtain ⟨hf, hfields⟩ := List.forall_mem_cons.1 hfields
    exact ⟨hf, ih hfields⟩

theorem Arrangement.placed_entries (a : Arrangement) : Placed .root a.entries := by
  have hsections (owner : Section) (sections : List Section) :
      Placed owner (sections.flatMap fun o => .header o :: a.sectionEntries o) := by
    induction sections generalizing owner with
    | nil => trivial
    | cons o sections ih => exact placed_sectionEntries a o (ih o)
  exact placed_sectionEntries a .root (hsections .root a.sections)

/-- Lines that write entries, in their order, with fillers between them. -/
inductive WritesLines (s : Settings) : List TextEntry → List (List Char) → Prop
  | nil : WritesLines s [] []
  | filler {es : List TextEntry} {text : List Char} {texts : List (List Char)} (h : Filler text)
      (hrest : WritesLines s es texts) : WritesLines s es (text :: texts)
  | entry {e : TextEntry} {es : List TextEntry} {text : List Char} {texts : List (List Char)}
      (h : WritesEntry s e text) (hrest : WritesLines s es texts) :
      WritesLines s (e :: es) (text :: texts)

theorem WritesLines.newline {s : Settings} {es : List TextEntry} {texts : List (List Char)}
    (h : WritesLines s es texts) : ∀ text ∈ texts, '\n' ∉ text := by
  induction h with
  | nil => exact nofun
  | filler h hrest ih => exact List.forall_mem_cons.2 ⟨h.newline, ih⟩
  | entry h hrest ih => exact List.forall_mem_cons.2 ⟨h.newline, ih⟩

/-! ## What the lines do -/

namespace Reading

variable {s : Settings} {r : Reading}

/-- A settings text read up to one entry more. -/
def enter (s : Settings) (r : Reading) : TextEntry → Reading
  | .header owner => { r with owner }
  | .field f => { r with settings := r.settings.set f (s.get f) }

/-- A line that writes an entry in its section enters it. -/
theorem step_of_writesEntry (hs : s.InRange) {e : TextEntry} {es : List TextEntry}
    {text : List Char} (h : WritesEntry s e text) (hplaced : Placed r.owner (e :: es)) :
    r.step text = .ok (r.enter s e) ∧ Placed (r.enter s e).owner es := by
  cases h with
  | header htitled hg h₁ h₂ htail =>
    rw [step, ofText_header htitled hg h₁ h₂ htail]
    exact ⟨rfl, hplaced⟩
  | @field f name hname value hvalue g g₁ g₂ tail hg h₁ h₂ htail =>
    obtain ⟨howner, hrest⟩ := hplaced
    have hnamed : Field.named? r.owner name.toList = some f := howner ▸ f.named?_of_mem name hname
    have hplain := ValueKind.plain_of_writes hvalue
    have hassign : r.assign name.toList value = .ok (r.enter s (.field f)) := by
      rw [assign, hnamed]
      simp only [ValueKind.read_of_writes (hs f) hvalue, Except.map, enter]
    rw [step, ofText_field hname hplain h₁ h₂ hg htail]
    exact ⟨hassign, hrest⟩

/-- **The lines of a rendering** enter its entries, one after another. -/
theorem steps_of_writesLines (hs : s.InRange) {es : List TextEntry} {texts : List (List Char)}
    (h : WritesLines s es texts) (hplaced : Placed r.owner es) :
    r.steps texts = .ok (es.foldl (enter s) r) := by
  -- Induction on the lines. Fillers are silent; an entry leaves the rest placed in the section that
  -- is open behind it.
  induction h generalizing r with
  | nil => rfl
  | filler h hrest ih =>
    have hstep : r.step _ = .ok r := congrArg r.apply h.ofText
    rw [steps, hstep]
    exact ih hplaced
  | entry h hrest ih =>
    obtain ⟨hstep, hplaced⟩ := step_of_writesEntry hs h hplaced
    rw [steps, hstep]
    exact ih hplaced

theorem get_enter_of_get {f : Field} (h : r.settings.get f = s.get f) (e : TextEntry) :
    (r.enter s e).settings.get f = s.get f := by
  cases e with
  | header owner => exact h
  | field g =>
    by_cases hfg : f = g
    · subst hfg
      exact Settings.get_set_self r.settings f _
    · exact (Settings.get_set_of_ne r.settings _ hfg).trans h

/-- A field that was entered has its value, whatever was entered before and behind it. -/
theorem get_foldl_enter {f : Field} {es : List TextEntry}
    (h : .field f ∈ es ∨ r.settings.get f = s.get f) :
    (es.foldl (enter s) r).settings.get f = s.get f := by
  -- Induction on the entries: the field is still to come, or has its value and keeps it.
  induction es generalizing r with
  | nil => exact h.resolve_left nofun
  | cons e es ih =>
    rw [List.foldl_cons]
    apply ih
    rcases h with hmem | hget
    · rcases List.mem_cons.1 hmem with rfl | hmem
      · exact Or.inr (Settings.get_set_self r.settings f _)
      · exact Or.inl hmem
    · exact Or.inr (get_enter_of_get hget e)

end Reading

/-! ## The ends of the lines -/

/-- A text that consists of lines; the last one may lack its end. -/
inductive Joins : List (List Char) → List Char → Prop
  | nil : Joins [] []
  | last {text : List Char} (hne : text ≠ []) : Joins [text] text
  | feed {text s : List Char} {texts : List (List Char)} (hrest : Joins texts s) :
      Joins (text :: texts) (text ++ '\n' :: s)
  | returnFeed {text s : List Char} {texts : List (List Char)} (hrest : Joins texts s) :
      Joins (text :: texts) (text ++ '\r' :: '\n' :: s)

namespace Reading

/-- A carriage return at the end of a line makes no difference. -/
theorem step_withoutReturn (r : Reading) (text : List Char) :
    r.step (withoutReturn text) = r.step text := by
  rw [step, step, SettingsLine.ofText, SettingsLine.ofText, trim_withoutReturn]

/-- A text does what its lines do. -/
theorem steps_lines {texts : List (List Char)} {s : List Char} (h : Joins texts s)
    (hfeed : ∀ text ∈ texts, '\n' ∉ text) (r : Reading) : r.steps (lines s) = r.steps texts := by
  induction h generalizing r with
  | nil => rfl
  | last hne => rw [lines_of_newline hne (hfeed _ List.mem_cons_self)]
  | @feed text s texts hrest ih =>
    obtain ⟨htext, hfeed⟩ := List.forall_mem_cons.1 hfeed
    rw [lines_append_newline htext, steps, steps, step_withoutReturn]
    simp only [ih hfeed]
  | @returnFeed text s texts hrest ih =>
    obtain ⟨htext, hfeed⟩ := List.forall_mem_cons.1 hfeed
    -- the reader of lines takes the carriage return away itself
    have hreturn : '\n' ∉ text ++ ['\r'] := by simp [htext]
    have hlast : withoutReturn (text ++ ['\r']) = text := by
      rw [withoutReturn, List.getLast?_concat, if_pos rfl, List.dropLast_concat]
    rw [List.append_cons, lines_append_newline hreturn, hlast, steps, steps]
    simp only [ih hfeed]

end Reading

/-! ## Whole texts -/

/-- Whether a text renders settings: its lines write all entries, in some arrangement. -/
def Settings.Renders (s : Settings) (text : String) : Prop :=
  ∃ (a : Arrangement) (texts : List (List Char)),
    WritesLines s a.entries texts ∧ Joins texts text.toList

/-! ### A plain rendering -/

theorem joins_unlines (texts : List (List Char)) : Joins texts (unlines texts) := by
  induction texts with
  | nil => exact .nil
  | cons text texts ih =>
    rw [unlines, List.flatMap_cons, List.append_assoc]
    exact .feed ih

theorem toLower_of_isDigit {c : Char} (h : c.isDigit = true) : c.toLower = c := by
  have hrange : c.toNat ≤ 57 := by
    simp only [Char.isDigit, Bool.and_eq_true, decide_eq_true_eq, UInt32.le_iff_toNat_le] at h
    exact h.2
  rw [← Char.toNat_inj, toNat_toLower, if_neg (by omega)]

theorem writesDigits_toDigits (n : Nat) : WritesDigits 10 n (Nat.toDigits 10 n) := by
  have hdigits := isDigit_of_digitsFrom? (digitsFrom?_toDigits (by decide) (by decide) n)
  refine ⟨0, Nat.toDigits 10 n, rfl, ?_⟩
  rw [List.map_congr_left fun c hc => toLower_of_isDigit (hdigits c hc), List.map_id']

/-- The plain spelling of a value: a word, or decimal digits. -/
def ValueKind.spell : (kind : ValueKind) → kind.Value → List Char
  | .flag, v => if v = true then "true".toList else "false".toList
  | kind, v => Nat.toDigits 10 (kind.number v)

theorem ValueKind.writes_spell (kind : ValueKind) (v : kind.Value) :
    kind.Writes v (kind.spell v) := by
  cases kind with
  | flag => rfl
  | pin => exact .bare (List.mem_cons_self) (writesDigits_toDigits _)
  | _ => exact .decimal (writesDigits_toDigits _)

/-- The first name of a field. -/
def Field.firstName (f : Field) : String := f.names.headD ""

/-- The last name of a field: the other one, if it has two. -/
def Field.lastName (f : Field) : String := f.names.getLastD ""

theorem Field.firstName_mem (f : Field) : f.firstName ∈ f.names := by
  cases f <;> decide

theorem Field.lastName_mem (f : Field) : f.lastName ∈ f.names := by
  cases f <;> decide

/-- The plain line of an entry, for a choice of the names. -/
def Settings.line (s : Settings) (nameOf : Field → String) : TextEntry → List Char
  | .header owner => headerText owner [] []
  | .field f => fieldText (nameOf f) [' '] [' '] (f.kind.spell (s.get f))

theorem Arrangement.not_mem_entries (a : Arrangement) : .header .root ∉ a.entries := by
  have hroot : .root ∉ a.sections := by
    rw [a.perm_sections.mem_iff]
    decide
  simp [entries, sectionEntries, hroot]

theorem writesLines_line (s : Settings) {nameOf : Field → String}
    (hnames : ∀ f : Field, nameOf f ∈ f.names) {es : List TextEntry}
    (hroot : .header .root ∉ es) : WritesLines s es (es.map (s.line nameOf)) := by
  induction es with
  | nil => exact .nil
  | cons e es ih =>
    obtain ⟨he, hes⟩ := not_or.1 (mt List.mem_cons.2 hroot)
    refine .entry ?_ (ih hes)
    have hnil : Gap [] := nofun
    cases e with
    | header owner =>
      have htitled : owner ≠ .root := fun heq => he (heq ▸ rfl)
      have hline := WritesEntry.header (s := s) htitled hnil hnil hnil (.gap hnil)
      rw [List.nil_append, List.append_nil] at hline
      exact hline
    | field f =>
      have hvalue := f.kind.writes_spell (s.get f)
      have hgap : Gap [' '] := by decide
      have hline := WritesEntry.field (hnames f) hvalue hnil hgap hgap (.gap hnil)
      rw [List.nil_append, List.append_nil] at hline
      exact hline

/-- Settings written plainly, with no more than their entries. -/
def Settings.render (s : Settings) (a : Arrangement) : String :=
  String.ofList (unlines (a.entries.map (s.line Field.firstName)))

/-- The text that has the given lines. -/
def textOf (texts : List String) : String := String.ofList (unlines (texts.map String.toList))

theorem lines_textOf {texts : List String}
    (h : ∀ text ∈ texts, '\n' ∉ text.toList ∧ text.toList.getLast? ≠ some '\r') :
    lines (textOf texts).toList = texts.map String.toList := by
  rw [textOf, String.toList_ofList]
  exact lines_unlines (List.forall_mem_map.2 h)

theorem renders_of_writesLines {s : Settings} {a : Arrangement} {texts : List (List Char)}
    (h : WritesLines s a.entries texts) : s.Renders (String.ofList (unlines texts)) := by
  refine ⟨a, texts, h, ?_⟩
  rw [String.toList_ofList]
  exact joins_unlines texts

/-- All settings have renderings, one for each arrangement at least. -/
theorem Settings.renders_render (s : Settings) (a : Arrangement) : s.Renders (s.render a) :=
  renders_of_writesLines (writesLines_line s Field.firstName_mem a.not_mem_entries)

namespace Settings

/-- **Reading undoes rendering.** Every rendering of settings in range is read as exactly these
settings. -/
theorem read_of_renders {s : Settings} (hs : s.InRange) {text : String} (h : s.Renders text) :
    read text = .ok s := by
  obtain ⟨a, texts, hlines, hjoins⟩ := h
  have hsteps : Reading.steps {} (lines text.toList) =
      .ok (a.entries.foldl (Reading.enter s) {}) := by
    rw [Reading.steps_lines hjoins hlines.newline]
    exact Reading.steps_of_writesLines hs hlines a.placed_entries
  have hall : (a.entries.foldl (Reading.enter s) {}).settings = s :=
    ext_get fun f => Reading.get_foldl_enter (Or.inl (a.mem_entries f))
  rw [read, hsteps]
  exact congrArg Except.ok hall

/-- The sections and the fields of each, last to first. -/
def backwards : Arrangement where
  sections := [.lighting, .typing, .timing, .display]
  fields owner := owner.fields.reverse
  perm_sections := by decide
  perm_fields owner := List.reverse_perm _

/-- Settings of a panel with another display, wired in another way: no field has its default. -/
def rewired : Settings where
  display := ⟨0x3D, 100000, 4, 5, 132, 32⟩
  timing := ⟨60000, 500, 125⟩
  typing := ⟨200, 8, 16⟩
  lighting := ⟨false, 7, 11, 22, 33, 44⟩
  ledPin := 2

theorem rewired_get_ne (f : Field) : rewired.get f ≠ standard.get f := by
  cases f <;> decide

theorem inRange_rewired : rewired.InRange := by
  intro f
  cases f <;> decide

/-- The lines of a text with comments and gaps, a quoted pin and a hexadecimal number. Every field
that has two names stands under the second one. -/
def mixedLines : List String :=
  ["# wiring",
    "\tws2812_pin=\"GP002\" # data",
    "",
    "[ rgb ]\t# lights",
    "speed = 0X002c",
    "value = 33",
    "saturation = 22",
    "hue = 11",
    "mode = 7",
    "enabled = false",
    "[wpm]",
    "sample_periods = 16",
    "sample_seconds = 8",
    "scale_max = 200",
    "[timing]",
    "bar_redraw_interval_ms = 125",
    "check_interval_ms = 500",
    "timeout_ms = 60000",
    "[display]",
    "height = 32",
    "width = 132",
    "scl_pin = 5",
    "sda_pin = 4",
    "frequency = 100000",
    "address = 61"]

/-- Behind the first lines, which have spellings of their own, the text is a plain rendering. -/
theorem map_toList_mixedLines :
    mixedLines.map String.toList =
      "# wiring".toList :: "\tws2812_pin=\"GP002\" # data".toList :: "".toList ::
        "[ rgb ]\t# lights".toList :: "speed = 0X002c".toList ::
          (backwards.entries.drop 3).map (rewired.line Field.lastName) := by
  decide +kernel

theorem writesLines_mixedLines :
    WritesLines rewired backwards.entries (mixedLines.map String.toList) := by
  rw [map_toList_mixedLines]
  have hnil : Gap [] := nofun
  have hspace : Gap [' '] := by decide
  have htab : Gap ['\t'] := by decide
  have htitle : Filler "# wiring".toList := .comment hnil (by decide : '\n' ∉ " wiring".toList)
  have hpin : WritesEntry rewired (.field .ledPin) "\tws2812_pin=\"GP002\" # data".toList := by
    have hname : "ws2812_pin" ∈ Field.ledPin.names := by decide
    have hword : "GP".toList ∈ pinWords := by decide
    have hdigits : WritesDigits 10 2 "002".toList := ⟨2, "2".toList, rfl, by decide⟩
    have hvalue : Field.ledPin.kind.Writes (rewired.get .ledPin) "\"GP002\"".toList :=
      WritesPin.quoted hword hdigits
    exact .field hname hvalue htab hnil hnil (.comment hspace (by decide : '\n' ∉ " data".toList))
  have hheader : WritesEntry rewired (.header .lighting) "[ rgb ]\t# lights".toList :=
    .header (by decide) hnil hspace hspace (.comment htab (by decide : '\n' ∉ " lights".toList))
  have hspeed : WritesEntry rewired (.field .speed) "speed = 0X002c".toList := by
    have hname : "speed" ∈ Field.speed.names := by decide
    have hdigits : WritesDigits 16 44 "002c".toList := ⟨2, "2c".toList, rfl, by decide⟩
    have hvalue : Field.speed.kind.Writes (rewired.get .speed) "0X002c".toList :=
      WritesInteger.hexadecimal (Or.inr rfl) hdigits
    exact .field hname hvalue hnil hspace hspace (.gap hnil)
  refine .filler htitle (.entry hpin (.filler (.gap hnil) (.entry hheader (.entry hspeed ?_))))
  exact writesLines_line rewired Field.lastName_mem (by decide)

theorem read_mixedLines :
    rewired.InRange ∧ (∀ f, rewired.get f ≠ standard.get f) ∧
      rewired.Renders (textOf mixedLines) ∧
      read (textOf mixedLines) = .ok rewired := by
  have hrenders := renders_of_writesLines writesLines_mixedLines
  exact ⟨inRange_rewired, rewired_get_ne, hrenders, read_of_renders inRange_rewired hrenders⟩

end Settings

end StatusPanel
