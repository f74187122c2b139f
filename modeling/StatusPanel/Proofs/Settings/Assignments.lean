import Mathlib.Data.List.Induction
import StatusPanel.Proofs.Settings.Retouching

/-!
# The last assignment

What a settings text says does not hang on how it is read. A field has the value of the last line
that assigns it, with one of its keys and in the section of the key, or its default if there is
none; no other line has a part in it. If a line is faulty, the text is refused, with the error of
the first such line.

## Main definitions

* `HeaderLine`, `KeyLine`: the lines that open sections, and those that assign to keys
* `openBelow`: the section that is open below some lines
* `Assigns`, `FaultyLine`: what is said of a line while a section is open
* `At`, `AssignsAt`, `FaultyAt`: the same of a line in its place among others
* `FirstFaultAt`, `LastValue`: the first faulty line, and what the last assignment of a field leaves

## Main results

* `SettingsLine.opened?_eq`, `SettingsLine.ofText_eq_assign_iff`: what is read of a line
* `Reading.step_eq_error_iff`, `Reading.get_of_step`: the effect of a line
* `Reading.Tracks.step`: the invariant of a reading, one line more
* `Reading.tracks_of_steps`, `Reading.exists_firstFaultAt_of_steps`: all lines
* `Settings.read_eq_lastAssigned`: the settings and the errors of a text
-/

namespace StatusPanel

open Text

/-! ## What is said of a line -/

/-- Whether a line is a header with a name: apart from blanks and a comment behind it, the line is
the name between brackets. -/
def HeaderLine (line name : List Char) : Prop :=
  ∃ inner, trimEnd (before '#' (trim line)) = '[' :: (inner ++ [']']) ∧ trim inner = name

/-- Whether a line is a key line: it is no comment and no header, and its first equals sign parts a
key from the text of a value, neither of which is empty. -/
inductive KeyLine (line key value : List Char) : Prop
  | intro {left right : List Char} (hline : trim line = left ++ '=' :: right) (hfirst : '=' ∉ left)
      (hcomment : left.head? ≠ some '#') (hheader : left.head? ≠ some '[')
      (hkey : trim left = key) (hne : key ≠ [])
      (hvalue : SettingsLine.withoutComment (trim right) = value) (hne' : value ≠ [])

theorem headerLine_iff {line name : List Char} :
    HeaderLine line name ↔ SettingsLine.headerName? (trim line) = some name := by
  unfold HeaderLine SettingsLine.headerName?
  generalize trimEnd (before '#' (trim line)) = s
  constructor
  · rintro ⟨inner, rfl, rfl⟩
    simp
  · intro h
    split at h
    case h_1 rest =>
      split at h
      case isTrue hlast =>
        -- the brackets enclose what is left of the line
        refine ⟨rest.dropLast, ?_, Option.some.inj h⟩
        rw [List.dropLast_append_getLast? _ hlast]
      case isFalse => cases h
    case h_2 => cases h

instance (line name : List Char) : Decidable (HeaderLine line name) :=
  decidable_of_iff _ headerLine_iff.symm

/-- The section that a line opens: that whose name stands in its header. -/
def SettingsLine.opened? (line : List Char) : Option Section :=
  Section.titled.find? fun owner => HeaderLine line owner.title.toList

/-- The section that is open below lines: that of the last header, or the root without any. -/
def openBelow (above : List (List Char)) : Section :=
  ((above.filterMap SettingsLine.opened?).getLast?).getD .root

/-- Whether a line assigns the text of a value to a field: its key is one that sets the field, and
the section of the key is open. -/
def Assigns (owner : Section) (line : List Char) (f : Field) (value : List Char) : Prop :=
  ∃ key ∈ settingsKeys, key.owner = owner ∧ key.field = f ∧ KeyLine line key.name.toList value

/-- Whether a line is faulty: its header is malformed or has a name of no section, or it assigns to
a key of the open section what is no value of the key's kind. -/
inductive FaultyLine (owner : Section) (line : List Char) : SettingsError → Prop
  | malformed {rest : List Char} (hline : trim line = '[' :: rest)
      (h : ∀ name, ¬HeaderLine line name) : FaultyLine owner line .badSection
  | unknown {name : List Char} (hname : HeaderLine line name)
      (h : ∀ opened ∈ Section.titled, opened.title.toList ≠ name) :
      FaultyLine owner line .badSection
  | value {key : SettingsKey} (hkey : key ∈ settingsKeys) (howner : key.owner = owner)
      {value : List Char} (hline : KeyLine line key.name.toList value) {e : SettingsError}
      (hvalue : key.kind.read value = .error e) : FaultyLine owner line e

section

variable (P : Section → List Char → Prop) (texts : List (List Char)) (i : Nat)

/-- Whether something holds of a line in its place, with the section that is open there. -/
def At : Prop := ∃ line, texts[i]? = some line ∧ P (openBelow (texts.take i)) line

/-- Whether a line in its place assigns the text of a value to a field. -/
def AssignsAt (f : Field) (value : List Char) : Prop :=
  At (fun owner line => Assigns owner line f value) texts i

/-- Whether a line in its place is faulty. -/
def FaultyAt (e : SettingsError) : Prop := At (fun owner line => FaultyLine owner line e) texts i

/-- Whether a line is the first that is faulty. -/
def FirstFaultAt (e : SettingsError) : Prop :=
  FaultyAt texts i e ∧ ∀ j < i, ∀ e', ¬FaultyAt texts j e'

end

/-- Whether lines leave a field with a value: that of the last line which assigns it, or the default
if there is none. -/
def LastValue (texts : List (List Char)) (f : Field) (v : f.kind.Value) : Prop :=
  (∃ i value, AssignsAt texts i f value ∧ (∀ j > i, ∀ value', ¬AssignsAt texts j f value') ∧
      f.kind.read value = .ok v) ∨
    (∀ i value, ¬AssignsAt texts i f value) ∧ v = Settings.standard.get f

/-! ### Lines among others -/

section

variable {P : Section → List Char → Prop} {texts others : List (List Char)} {line : List Char}
  {i n : Nat}

theorem openBelow_concat (texts : List (List Char)) (line : List Char) :
    openBelow (texts ++ [line]) = (SettingsLine.opened? line).getD (openBelow texts) := by
  unfold openBelow
  rw [List.filterMap_append]
  cases h : SettingsLine.opened? line with
  | none => rw [List.filterMap_cons_none h, List.filterMap_nil, List.append_nil, Option.getD_none]
  | some owner =>
    rw [List.filterMap_cons_some h, List.filterMap_nil, List.getLast?_concat]
    rfl

/-- What is said of a line depends on nothing below it. -/
theorem at_congr (h : others.take n = texts.take n) (hi : i < n) :
    At P others i ↔ At P texts i := by
  have hline : others[i]? = texts[i]? := by
    rw [← List.getElem?_take_of_lt hi, h, List.getElem?_take_of_lt hi]
  have habove : others.take i = texts.take i := by
    have hmin : min i n = i := Nat.min_eq_left hi.le
    rw [← hmin, ← List.take_take, h, List.take_take]
  rw [At, At, hline, habove]

theorem at_concat : At P (texts ++ [line]) i ↔
    At P texts i ∨ i = texts.length ∧ P (openBelow texts) line := by
  unfold At
  rcases Nat.lt_trichotomy i texts.length with hlt | rfl | hgt
  · rw [List.getElem?_append_left hlt, List.take_append_of_le_length (Nat.le_of_lt hlt)]
    simp [Nat.ne_of_lt hlt]
  · simp
  · have hnone : (texts ++ [line])[i]? = none := List.getElem?_eq_none (by simp; omega)
    have hnone' : texts[i]? = none := List.getElem?_eq_none (Nat.le_of_lt hgt)
    simp [hnone, hnone', Nat.ne_of_gt hgt]

/-- Which line is the first faulty one depends on nothing below it. -/
theorem firstFaultAt_congr {e : SettingsError} (h : others.take (i + 1) = texts.take (i + 1)) :
    FirstFaultAt others i e ↔ FirstFaultAt texts i e := by
  have hat {j : Nat} {e' : SettingsError} (hj : j ≤ i) :
      FaultyAt others j e' ↔ FaultyAt texts j e' := at_congr h (Nat.lt_succ_of_le hj)
  rw [FirstFaultAt, FirstFaultAt, hat (Nat.le_refl i)]
  refine and_congr_right fun _ => forall_congr' fun j => forall_congr' fun hj => ?_
  exact forall_congr' fun e' => not_congr (hat hj.le)

theorem lt_of_at (h : At P texts i) : i < texts.length := by
  obtain ⟨line, hline, -⟩ := h
  exact (List.getElem?_eq_some_iff.1 hline).1

end

/-! ## The effect of a line -/

/-- The first character of a header is a bracket. -/
theorem HeaderLine.exists_rest {line name : List Char} (h : HeaderLine line name) :
    ∃ rest, trim line = '[' :: rest := by
  obtain ⟨inner, hinner, -⟩ := h
  have hstart : '[' :: (inner ++ [']']) <+: trim line := by
    rw [← hinner]
    exact (trimEnd_prefix_self _).trans (before_prefix_self _ _)
  obtain ⟨rest, hrest⟩ := hstart
  exact ⟨_, hrest.symm⟩

/-- A header opens no section if its name is that of none. -/
theorem HeaderLine.opened?_eq_none_iff {line name : List Char} (h : HeaderLine line name) :
    SettingsLine.opened? line = none ↔
      ∀ opened ∈ Section.titled, opened.title.toList ≠ name := by
  simp only [SettingsLine.opened?, List.find?_eq_none, decide_eq_true_eq, headerLine_iff,
    headerLine_iff.1 h, Option.some.injEq]
  exact forall₂_congr fun opened _ => not_congr eq_comm

namespace SettingsLine

variable {line : List Char}

/-- The name in a header is that of the section that the line opens. -/
theorem opened?_eq_bind (line : List Char) :
    opened? line = (headerName? (trim line)).bind Section.named? := by
  simp only [opened?, headerLine_iff]
  cases headerName? (trim line) with
  | none => simp
  | some name => simp [Section.named?_eq_find?, eq_comm]

/-- A line is a header if a bracket is the first that is not blank. -/
theorem ofText_eq_header_iff {opened : Option Section} :
    ofText line = .header opened ↔ (∃ rest, trim line = '[' :: rest) ∧ opened? line = opened := by
  rw [opened?_eq_bind]
  constructor
  · intro h
    cases hline : trim line with
    | nil =>
      rw [ofText, hline] at h
      cases h
    | cons a rest =>
      rw [ofText_of_trim hline] at h
      split at h
      · cases h
      · split at h
        case isTrue hbracket =>
          subst hbracket
          exact ⟨⟨rest, rfl⟩, header.inj h⟩
        case isFalse =>
          simp only [ofAssignment] at h
          split at h <;> cases h
  · rintro ⟨⟨rest, hline⟩, rfl⟩
    rw [ofText_of_trim hline, hline]
    rfl

/-- No other line opens a section. -/
theorem opened?_eq (line : List Char) :
    opened? line = match ofText line with
      | .header opened => opened
      | _ => none := by
  cases hopened : opened? line with
  | none =>
    split
    case h_1 heq => exact hopened.symm.trans (ofText_eq_header_iff.1 heq).2
    case h_2 => rfl
  | some owner =>
    have hheader : HeaderLine line owner.title.toList := by
      have hfound :=
        List.find?_some (p := fun owner : Section => HeaderLine line owner.title.toList) hopened
      exact of_decide_eq_true hfound
    rw [ofText_eq_header_iff.2 ⟨hheader.exists_rest, hopened⟩]

theorem ofAssignment_eq_assign_iff {s key value : List Char} :
    ofAssignment s = .assign key value ↔ '=' ∈ s ∧ trim (before '=' s) = key ∧ key ≠ [] ∧
      withoutComment (trim (behind '=' s)) = value ∧ value ≠ [] := by
  simp only [ofAssignment]
  constructor
  · intro h
    split at h
    case isTrue => cases h
    case isFalse hparts =>
      obtain ⟨rfl, rfl⟩ := assign.inj h
      simpa only [not_or, not_not, true_and] using hparts
  · rintro ⟨hequals, rfl, hne, rfl, hne'⟩
    simp [hequals, hne, hne']

/-- **A line is read as an assignment** if it is a key line. -/
theorem ofText_eq_assign_iff {key value : List Char} :
    ofText line = .assign key value ↔ KeyLine line key value := by
  constructor
  · intro h
    cases hline : trim line with
    | nil =>
      rw [ofText, hline] at h
      cases h
    | cons a rest =>
      rw [ofText_of_trim hline] at h
      split at h
      case isTrue => cases h
      case isFalse hcomment =>
        split at h
        case isTrue => cases h
        case isFalse hheader =>
          obtain ⟨hequals, hkey, hne, hvalue, hne'⟩ := ofAssignment_eq_assign_iff.1 h
          -- the line is cut at its first equals sign
          obtain ⟨left, right, hcut, hfirst⟩ := List.eq_append_cons_of_mem hequals
          rw [hcut, before_append hfirst] at hkey
          rw [hcut, behind_append hfirst] at hvalue
          have hhead : ∀ c ∈ left.head?, c = a := by
            intro c hc
            cases left with
            | nil => cases hc
            | cons b left =>
              obtain rfl := Option.some.inj hc
              exact (List.cons.inj hcut).1.symm
          refine ⟨hline.trans hcut, hfirst, fun hc => ?_, fun hc => ?_, hkey, hne, hvalue, hne'⟩
          · exact hcomment (hhead _ hc).symm
          · exact hheader (hhead _ hc).symm
  · rintro @⟨left, right, hline, hfirst, hcomment, hheader, hkey, hne, hvalue, hne'⟩
    cases left with
    | nil => exact absurd hkey.symm hne
    | cons a left =>
      rw [List.head?_cons, Option.some_inj.ne] at hcomment hheader
      rw [List.cons_append] at hline
      rw [ofText_of_trim hline, if_neg hcomment, if_neg hheader, ← List.cons_append,
        ofAssignment_eq_assign_iff, before_append hfirst, behind_append hfirst]
      exact ⟨by simp, hkey, hne, hvalue, hne'⟩

end SettingsLine

theorem assigns_iff {owner : Section} {line value : List Char} {f : Field} :
    Assigns owner line f value ↔
      ∃ key, SettingsLine.ofText line = .assign key value ∧ Field.named? owner key = some f := by
  simp only [Assigns, Field.named?_eq_some_iff, SettingsLine.ofText_eq_assign_iff]
  constructor
  · rintro ⟨key, hkey, howner, hfield, hline⟩
    exact ⟨_, hline, key, hkey, howner, rfl, hfield⟩
  · rintro ⟨_, hline, key, hkey, howner, rfl, hfield⟩
    exact ⟨key, hkey, howner, hfield, hline⟩

/-- A line assigns one text to one field. -/
theorem Assigns.unique {owner : Section} {line value value' : List Char} {f f' : Field}
    (h : Assigns owner line f value) (h' : Assigns owner line f' value') :
    f = f' ∧ value = value' := by
  obtain ⟨key, hline, hf⟩ := assigns_iff.1 h
  obtain ⟨key', hline', hf'⟩ := assigns_iff.1 h'
  obtain ⟨rfl, rfl⟩ := SettingsLine.assign.inj (hline.symm.trans hline')
  exact ⟨Option.some.inj (hf.symm.trans hf'), rfl⟩

theorem faultyLine_iff {owner : Section} {line : List Char} {e : SettingsError} :
    FaultyLine owner line e ↔ SettingsLine.ofText line = .header none ∧ e = .badSection ∨
      ∃ f value, Assigns owner line f value ∧ f.kind.read value = .error e := by
  rw [SettingsLine.ofText_eq_header_iff]
  constructor
  · intro h
    cases h with
    | malformed hline h =>
      refine Or.inl ⟨⟨⟨_, hline⟩, ?_⟩, rfl⟩
      simp [SettingsLine.opened?, h]
    | unknown hname h =>
      exact Or.inl ⟨⟨hname.exists_rest, hname.opened?_eq_none_iff.2 h⟩, rfl⟩
    | @value key hkey howner value hline e hvalue =>
      obtain ⟨-, -, hkind⟩ := mem_settingsKeys_iff.1 hkey
      rw [← hkind] at hvalue
      exact Or.inr ⟨key.field, value, ⟨key, hkey, howner, rfl, hline⟩, hvalue⟩
  · rintro (⟨⟨⟨rest, hline⟩, hnone⟩, rfl⟩ | ⟨f, value, ⟨key, hkey, howner, rfl, hline⟩, hvalue⟩)
    · by_cases hheader : ∃ name, HeaderLine line name
      · obtain ⟨name, hname⟩ := hheader
        exact .unknown hname (hname.opened?_eq_none_iff.1 hnone)
      · exact .malformed hline (not_exists.1 hheader)
    · obtain ⟨-, -, hkind⟩ := mem_settingsKeys_iff.1 hkey
      rw [hkind] at hvalue
      exact .value hkey howner hline hvalue

namespace Reading

variable {r q : Reading} {line : List Char} {texts : List (List Char)}

/-- **A line is refused** if it is faulty, with its error. -/
theorem step_eq_error_iff {e : SettingsError} :
    r.step line = .error e ↔ FaultyLine r.owner line e := by
  simp only [faultyLine_iff, assigns_iff]
  unfold step
  cases hline : SettingsLine.ofText line with
  | silent => simp [apply]
  | header opened => cases opened <;> simp [apply, eq_comm]
  | assign key value =>
    rw [apply, assign]
    cases hnamed : Field.named? r.owner key with
    | none => simp [hnamed]
    | some f => cases hvalue : f.kind.read value <;> simp [hnamed, hvalue, Except.map]

/-- What a line does that is read: nothing, or it opens a section, or it sets the one field that it
assigns. -/
theorem step_cases (h : r.step line = .ok q) :
    (SettingsLine.opened? line = none ∧ (∀ f value, ¬Assigns r.owner line f value) ∧ q = r) ∨
      (∃ owner, SettingsLine.opened? line = some owner ∧
        (∀ f value, ¬Assigns r.owner line f value) ∧ q = { r with owner }) ∨
      ∃ f value v, SettingsLine.opened? line = none ∧ Assigns r.owner line f value ∧
        f.kind.read value = .ok v ∧ q = { r with settings := r.settings.set f v } := by
  unfold step at h
  simp only [SettingsLine.opened?_eq, assigns_iff]
  cases hline : SettingsLine.ofText line with
  | silent =>
    rw [hline] at h
    obtain rfl := Except.ok.inj h
    refine Or.inl ⟨rfl, ?_, rfl⟩
    rintro f value ⟨key, hassign, -⟩
    cases hassign
  | header opened =>
    rw [hline] at h
    cases opened with
    | none => cases h
    | some owner =>
      obtain rfl := Except.ok.inj h
      refine Or.inr (Or.inl ⟨owner, rfl, ?_, rfl⟩)
      rintro f value ⟨key, hassign, -⟩
      cases hassign
  | assign key value =>
    rw [hline, apply, assign] at h
    cases hnamed : Field.named? r.owner key with
    | none =>
      rw [hnamed] at h
      obtain rfl := Except.ok.inj h
      refine Or.inl ⟨rfl, ?_, rfl⟩
      rintro f value' ⟨key', hassign, hf⟩
      obtain ⟨rfl, rfl⟩ := SettingsLine.assign.inj hassign
      rw [hnamed] at hf
      cases hf
    | some f =>
      rw [hnamed] at h
      cases hvalue : f.kind.read value with
      | error e => simp [hvalue, Except.map] at h
      | ok v =>
        simp only [hvalue, Except.map] at h
        obtain rfl := Except.ok.inj h
        exact Or.inr (Or.inr ⟨f, value, v, rfl, ⟨key, rfl, hnamed⟩, hvalue, rfl⟩)

/-- A line that is read opens a section or leaves the open one. -/
theorem owner_of_step (h : r.step line = .ok q) :
    q.owner = (SettingsLine.opened? line).getD r.owner := by
  obtain ⟨hopened, -, rfl⟩ | ⟨owner, hopened, -, rfl⟩ | ⟨f, value, v, hopened, -, -, rfl⟩ :=
    step_cases h
  all_goals
    rw [hopened]
    rfl

/-- **A field after a line** has the value that the line assigns to it, or the one it had. -/
theorem get_of_step (h : r.step line = .ok q) (f : Field) :
    (∃ value, Assigns r.owner line f value ∧ f.kind.read value = .ok (q.settings.get f)) ∨
      (∀ value, ¬Assigns r.owner line f value) ∧ q.settings.get f = r.settings.get f := by
  obtain ⟨-, hnone, rfl⟩ | ⟨owner, -, hnone, rfl⟩ | ⟨g, value, v, -, hassign, hvalue, rfl⟩ :=
    step_cases h
  · exact Or.inr ⟨hnone f, rfl⟩
  · exact Or.inr ⟨hnone f, rfl⟩
  · by_cases hfield : f = g
    · subst hfield
      refine Or.inl ⟨value, hassign, ?_⟩
      rw [hvalue, Settings.get_set_self]
    · refine Or.inr ⟨fun value' hassign' => hfield (hassign'.unique hassign).1, ?_⟩
      rw [Settings.get_set_of_ne _ _ hfield]

/-! ## The effect of lines -/

/-- A reading of lines: none is faulty, the open section is that of the last header, and each field
has its last value. -/
structure Tracks (texts : List (List Char)) (r : Reading) : Prop where
  owner_eq : r.owner = openBelow texts
  sound : ∀ i e, ¬FaultyAt texts i e
  lastValue : ∀ f, LastValue texts f (r.settings.get f)

theorem tracks_nil : Tracks [] {} := by
  have hnone {P : Section → List Char → Prop} (i : Nat) : ¬At P [] i := fun h =>
    Nat.not_lt_zero i (lt_of_at h)
  exact ⟨rfl, fun i e => hnone i, fun f => Or.inr ⟨fun i value => hnone i, rfl⟩⟩

/-- **One line more** keeps a reading on track. -/
theorem Tracks.step (h : Tracks texts r) (hstep : r.step line = .ok q) :
    Tracks (texts ++ [line]) q where
  owner_eq := by rw [openBelow_concat, owner_of_step hstep, h.owner_eq]
  sound i e := by
    rw [FaultyAt, at_concat, not_or]
    refine ⟨h.sound i e, fun ⟨_, hfaulty⟩ => ?_⟩
    rw [← h.owner_eq, ← step_eq_error_iff, hstep] at hfaulty
    cases hfaulty
  lastValue f := by
    simp only [LastValue, AssignsAt, at_concat, ← h.owner_eq]
    obtain ⟨value, hassign, hvalue⟩ | ⟨hnone, hkept⟩ := get_of_step hstep f
    · -- the new line is the last that assigns the field
      refine Or.inl ⟨texts.length, value, Or.inr ⟨rfl, hassign⟩, ?_, hvalue⟩
      rintro j hj value' (hat | ⟨rfl, -⟩)
      · exact Nat.lt_asymm hj (lt_of_at hat)
      · exact Nat.lt_irrefl _ hj
    · -- what the field had still counts
      rw [hkept]
      have hold {i : Nat} {value : List Char} : At (Assigns · · f value) texts i ∨
          i = texts.length ∧ Assigns r.owner line f value ↔ AssignsAt texts i f value :=
        or_iff_left fun hnew => hnone value hnew.2
      simp only [hold]
      exact h.lastValue f

theorem steps_concat (r : Reading) (texts : List (List Char)) (line : List Char) :
    r.steps (texts ++ [line]) = (r.steps texts).bind fun q => q.step line := by
  have hline (q : Reading) : q.steps [line] = q.step line := by
    rw [steps]
    cases q.step line <;> rfl
  simp only [steps_append, hline]

/-- **Lines that are read** leave a reading on track. -/
theorem tracks_of_steps (h : steps {} texts = .ok r) : Tracks texts r := by
  -- Induction from the end of the lines: what is said of a line refers to those above it.
  induction texts using List.reverseRecOn generalizing r with
  | nil =>
    obtain rfl := Except.ok.inj h
    exact tracks_nil
  | append_singleton texts line ih =>
    rw [steps_concat] at h
    cases hsteps : steps {} texts with
    | error e =>
      rw [hsteps] at h
      cases h
    | ok q =>
      rw [hsteps] at h
      exact (ih hsteps).step h

/-- **Lines that are refused** have a first faulty line, with that error. -/
theorem exists_firstFaultAt_of_steps {e : SettingsError} (h : steps {} texts = .error e) :
    ∃ i, FirstFaultAt texts i e := by
  induction texts using List.reverseRecOn with
  | nil => cases h
  | append_singleton texts line ih =>
    rw [steps_concat] at h
    cases hsteps : steps {} texts with
    | error e' =>
      -- the first faulty line is above the new one
      rw [hsteps] at h
      obtain rfl := Except.error.inj h
      obtain ⟨i, hfirst⟩ := ih hsteps
      have htake : (texts ++ [line]).take (i + 1) = texts.take (i + 1) :=
        List.take_append_of_le_length (lt_of_at hfirst.1)
      exact ⟨i, (firstFaultAt_congr htake).2 hfirst⟩
    | ok q =>
      -- all lines above were read, so the new one is the first that is faulty
      rw [hsteps] at h
      have htracks := tracks_of_steps hsteps
      have hfaulty : FaultyLine (openBelow texts) line e := by
        rw [← htracks.owner_eq]
        exact step_eq_error_iff.1 h
      refine ⟨texts.length, at_concat.2 (Or.inr ⟨rfl, hfaulty⟩), fun j hj e' hat => ?_⟩
      rcases at_concat.1 hat with hold | ⟨rfl, -⟩
      · exact htracks.sound j e' hold
      · exact Nat.lt_irrefl _ hj

end Reading

/-! ## What is determined -/

section

variable {P : Section → List Char → Prop} {texts : List (List Char)} {i j : Nat}

/-- A faulty line has one error. -/
theorem FaultyLine.unique {owner : Section} {line : List Char} {e e' : SettingsError}
    (h : FaultyLine owner line e) (h' : FaultyLine owner line e') : e = e' := by
  have hstep := (Reading.step_eq_error_iff (r := { owner })).2 h
  have hstep' := (Reading.step_eq_error_iff (r := { owner })).2 h'
  exact Except.error.inj (hstep.symm.trans hstep')

theorem FirstFaultAt.unique {e e' : SettingsError} (h : FirstFaultAt texts i e)
    (h' : FirstFaultAt texts j e') : e = e' := by
  obtain ⟨hat, hfirst⟩ := h
  obtain ⟨hat', hfirst'⟩ := h'
  rcases Nat.lt_trichotomy i j with hlt | rfl | hgt
  · exact absurd hat (hfirst' i hlt e)
  · obtain ⟨line, hline, hfaulty⟩ := hat
    obtain ⟨line', hline', hfaulty'⟩ := hat'
    obtain rfl := Option.some.inj (hline.symm.trans hline')
    exact hfaulty.unique hfaulty'
  · exact absurd hat' (hfirst j hgt e')

/-- Lines leave a field with one value. -/
theorem LastValue.unique {f : Field} {v v' : f.kind.Value} (h : LastValue texts f v)
    (h' : LastValue texts f v') : v = v' := by
  obtain ⟨i, value, hat, hlast, hvalue⟩ | ⟨hnone, rfl⟩ := h
  · obtain ⟨j, value', hat', hlast', hvalue'⟩ | ⟨hnone', -⟩ := h'
    · rcases Nat.lt_trichotomy i j with hlt | rfl | hgt
      · exact absurd hat' (hlast j hlt value')
      · obtain ⟨line, hline, hassign⟩ := hat
        obtain ⟨line', hline', hassign'⟩ := hat'
        obtain rfl := Option.some.inj (hline.symm.trans hline')
        obtain rfl := (hassign.unique hassign').2
        exact Except.ok.inj (hvalue.symm.trans hvalue')
      · exact absurd hat (hlast' i hgt value)
    · exact absurd hat (hnone' i value)
  · obtain ⟨j, value', hat', -⟩ | ⟨-, rfl⟩ := h'
    · exact absurd hat' (hnone j value')
    · rfl

end

/-! ## The settings of a text -/

namespace Settings

/-- A text is read, and the fields have their last values; or it is refused, with the error of its
first faulty line. -/
theorem read_cases (text : String) :
    (∃ s, read text = .ok s ∧ (∀ i e, ¬FaultyAt (lines text.toList) i e) ∧
        ∀ f, LastValue (lines text.toList) f (s.get f)) ∨
      ∃ e i, read text = .error e ∧ FirstFaultAt (lines text.toList) i e := by
  unfold read
  cases hsteps : Reading.steps {} (lines text.toList) with
  | ok r =>
    have htracks := Reading.tracks_of_steps hsteps
    exact Or.inl ⟨r.settings, rfl, htracks.sound, htracks.lastValue⟩
  | error e =>
    obtain ⟨i, hfirst⟩ := Reading.exists_firstFaultAt_of_steps hsteps
    exact Or.inr ⟨e, i, rfl, hfirst⟩

/-- **A text is refused** with the error of its first faulty line. -/
theorem read_eq_error_iff {text : String} {e : SettingsError} :
    read text = .error e ↔ ∃ i, FirstFaultAt (lines text.toList) i e := by
  constructor
  · intro hread
    obtain ⟨s, hok, -⟩ | ⟨e', i, herror, hfirst⟩ := read_cases text
    · cases hok.symm.trans hread
    · obtain rfl := Except.error.inj (herror.symm.trans hread)
      exact ⟨i, hfirst⟩
  · rintro ⟨i, hfirst⟩
    obtain ⟨s, -, hsound, -⟩ | ⟨e', j, herror, hfirst'⟩ := read_cases text
    · exact absurd hfirst.1 (hsound i e)
    · rw [herror, hfirst'.unique hfirst]

/-- **A text is read** if no line is faulty, and the fields have their last values. -/
theorem read_eq_ok_iff_lastValue {text : String} {s : Settings} :
    read text = .ok s ↔ (∀ i e, ¬FaultyAt (lines text.toList) i e) ∧
      ∀ f, LastValue (lines text.toList) f (s.get f) := by
  constructor
  · intro hread
    obtain ⟨s', hok, hsound, hlast⟩ | ⟨e, i, herror, -⟩ := read_cases text
    · obtain rfl := Except.ok.inj (hok.symm.trans hread)
      exact ⟨hsound, hlast⟩
    · cases herror.symm.trans hread
  · rintro ⟨hsound, hlast⟩
    obtain ⟨s', hok, -, hlast'⟩ | ⟨e, i, -, hfirst⟩ := read_cases text
    · have hsame : s' = s := ext_get fun f => (hlast' f).unique (hlast f)
      rw [hok, hsame]
    · exact absurd hfirst.1 (hsound i e)

/-- **The last assignment wins.** A text is refused if it has a faulty line, with the error of the
first one, whatever the lines below it are. Otherwise each field has the value of the last line that
assigns it, or its default if there is none. -/
theorem read_eq_lastAssigned (text : String) :
    ((∃ e, read text = .error e) ↔ ∃ i e, FaultyAt (lines text.toList) i e) ∧
      (∀ e, read text = .error e ↔ ∃ i, FirstFaultAt (lines text.toList) i e) ∧
      (∀ i e, FirstFaultAt (lines text.toList) i e → ∀ other : String,
        (lines other.toList).take (i + 1) = (lines text.toList).take (i + 1) →
          read other = .error e) ∧
      ∀ s, read text = .ok s ↔ (∀ i e, ¬FaultyAt (lines text.toList) i e) ∧
        ∀ f, LastValue (lines text.toList) f (s.get f) := by
  refine ⟨⟨?_, ?_⟩, fun e => read_eq_error_iff, ?_, fun s => read_eq_ok_iff_lastValue⟩
  · rintro ⟨e, hread⟩
    obtain ⟨i, hfirst⟩ := read_eq_error_iff.1 hread
    exact ⟨i, e, hfirst.1⟩
  · rintro ⟨i, e, hat⟩
    obtain ⟨s, -, hsound, -⟩ | ⟨e', j, herror, -⟩ := read_cases text
    · exact absurd hat (hsound i e)
    · exact ⟨e', herror⟩
  · intro i e hfirst other htake
    exact read_eq_error_iff.2 ⟨i, (firstFaultAt_congr htake).2 hfirst⟩

/-- A text with every key of every section in it, and some where they mean nothing. Of the two names
of a field the first one is assigned last. -/
def namedLines : List String :=
  ["value = none",
    "ws2812_pin = 9",
    "led_pin = 2 # data",
    "[ display ]",
    "address = 16",
    "i2c_address = 0x3D",
    "frequency = 1",
    "i2c_frequency = 100000",
    "sda_pin = \"gpio4\"",
    "scl_pin = GP5",
    "width = 132",
    "height = 32",
    "speed = none",
    "[timing] # milliseconds",
    "timeout_ms = 1",
    "sleep_timeout_ms = 60000",
    "check_interval_ms = 1",
    "sleep_check_interval_ms = 500",
    "bar_redraw_interval_ms = 125",
    "address = none",
    "[wpm]",
    "scale_max = 200",
    "sample_seconds = 8",
    "sample_periods = 16",
    "hue = 300",
    "[rgb]",
    "enabled = false",
    "mode = 1",
    "effect = 7",
    "hue = 11",
    "saturation = 1",
    "sat = 22",
    "value = 1",
    "val = 33",
    "speed = 44",
    "width = none"]

/-- The same with the sections in another order, and the second one of two names assigned last. -/
def aliasLines : List String :=
  ["led_pin = 9",
    "ws2812_pin = GP2",
    "[rgb] # lights",
    "speed = 44",
    "val = 1",
    "value = 33",
    "sat = 1",
    "saturation = 22",
    "hue = 11",
    "effect = 1",
    "mode = 7",
    "enabled = true",
    "enabled = false",
    "[ wpm ]",
    "sample_periods = 0x10",
    "sample_seconds = 8",
    "scale_max = 200",
    "[display]",
    "height = 32",
    "width = 132",
    "scl_pin = 5",
    "sda_pin = 4",
    "i2c_frequency = 1",
    "frequency = 100000",
    "i2c_address = 16",
    "address = 0x3d",
    "[timing]",
    "bar_redraw_interval_ms = 125",
    "sleep_check_interval_ms = 1",
    "check_interval_ms = 500",
    "sleep_timeout_ms = 1",
    "timeout_ms = 60000"]

/-- Lines with all keys but those of a section, and with values of no kind. -/
def otherKeys (owner : Section) : List String :=
  (settingsKeys.filter (·.owner ≠ owner)).map fun key => key.name ++ " = none"

/-- A text with every key in every section but its own. -/
def misplacedLines : List String :=
  otherKeys .root ++
    Section.titled.flatMap fun owner => ("[" ++ owner.title ++ "]") :: otherKeys owner

theorem read_namedLines : read (textOf namedLines) = .ok rewired := by
  rw [read, lines_textOf (by decide +kernel)]
  decide +kernel

theorem read_aliasLines : read (textOf aliasLines) = .ok rewired := by
  rw [read, lines_textOf (by decide +kernel)]
  decide +kernel

theorem read_misplacedLines : read (textOf misplacedLines) = .ok standard := by
  rw [read, lines_textOf (by decide +kernel)]
  decide +kernel

/-- Every key sets its field, in its section and nowhere else. A hue that is too large is refused
for it, though an unknown section comes below. -/
theorem read_eq_lastAssigned_keys :
    (∀ f, LastValue (lines (textOf namedLines).toList) f (rewired.get f)) ∧
      (∀ f, LastValue (lines (textOf aliasLines).toList) f (rewired.get f)) ∧
      read (textOf misplacedLines) =
        .ok ⟨⟨0x3C, 400000, 16, 17, 128, 64⟩, ⟨3000, 1000, 250⟩, ⟨150, 4, 32⟩,
          ⟨true, 50, 132, 213, 150, 127⟩, 15⟩ ∧
      ∃ i, FirstFaultAt (lines "[rgb]\nhue = 300".toList) i .badValue ∧
        read "[rgb]\nhue = 300\n[door]" = .error .badValue := by
  obtain ⟨-, -, -, hnamed⟩ := read_eq_lastAssigned (textOf namedLines)
  obtain ⟨-, -, -, halias⟩ := read_eq_lastAssigned (textOf aliasLines)
  obtain ⟨-, herror, hfollow, -⟩ := read_eq_lastAssigned "[rgb]\nhue = 300"
  obtain ⟨i, hfirst⟩ := (herror .badValue).1 (by decide)
  have hlines : lines "[rgb]\nhue = 300\n[door]".toList =
      lines "[rgb]\nhue = 300".toList ++ ["[door]".toList] := by decide
  have htake : (lines "[rgb]\nhue = 300\n[door]".toList).take (i + 1) =
      (lines "[rgb]\nhue = 300".toList).take (i + 1) := by
    rw [hlines, List.take_append_of_le_length (lt_of_at hfirst.1)]
  exact ⟨((hnamed rewired).1 read_namedLines).2, ((halias rewired).1 read_aliasLines).2,
    read_misplacedLines, i, hfirst, hfollow i _ hfirst _ htake⟩

end Settings

end StatusPanel
