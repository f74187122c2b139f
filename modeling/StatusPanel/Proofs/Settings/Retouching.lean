import StatusPanel.Proofs.Settings.Acceptance
import StatusPanel.Proofs.Settings.Rendering

/-!
# Comments and spacing

Comments, gaps and lines that say nothing may be put anywhere into a settings text: the settings
that are read stay the same, and so does the error if the text is refused.

The reader takes comments away at three places, and behind an odd number of quotes it takes a hash
sign for part of the value. A value that such a comment gets into is refused by every kind of field,
but so is the value with the odd number of quotes that stood there before, and with the same error.

## Main definitions

* `ValueKind.refusal`: the error of a kind
* `LineStart`, `LineEnd`: the places of a text where lines start and end
* `Retouch`: a comment, a gap or a line is put into a text

## Main results

* `withoutComment_append_comment`: a value and a comment behind it
* `Reading.step_append_comment`: a comment behind a line leaves its effect as it was
* `exists_place`: every line of a text has a place in it
* `Settings.read_retouch`: a retouched text is read as before
-/

namespace StatusPanel

open Text

/-! ## Refused values -/

namespace ValueKind

/-- The error of values that are not of a kind. -/
def refusal : ValueKind → SettingsError
  | .pin => .badPin
  | _ => .badValue

theorem integerIn_cases (lo hi : Nat) (s : List Char) :
    (∃ n, integerIn lo hi s = .ok n) ∨ integerIn lo hi s = .error .badValue := by
  unfold integerIn
  split
  · split
    · exact Or.inl ⟨_, rfl⟩
    · exact Or.inr rfl
  · exact Or.inr rfl

theorem pin?_cases (s : List Char) : (∃ n, pin? s = .ok n) ∨ pin? s = .error .badPin := by
  unfold pin?
  split
  · split
    · exact Or.inl ⟨_, rfl⟩
    · exact Or.inr rfl
  · exact Or.inr rfl

theorem flag?_cases (s : List Char) : (∃ b, flag? s = .ok b) ∨ flag? s = .error .badValue := by
  unfold flag?
  split
  · exact Or.inl ⟨_, rfl⟩
  · split
    · exact Or.inl ⟨_, rfl⟩
    · exact Or.inr rfl

/-- A kind has one error for all texts that are no value of it. -/
theorem read_of_not_reads {kind : ValueKind} {s : List Char} (h : ¬kind.Reads s) :
    kind.read s = .error kind.refusal := by
  have hmap {α β : Type} {f : α → β} {x : Except SettingsError α} {e : SettingsError}
      (hx : (∃ a, x = .ok a) ∨ x = .error e) (hnot : ¬∃ b, x.map f = .ok b) :
      x.map f = .error e := by
    rcases hx with hok | rfl
    · exact absurd (Except.exists_map_eq_ok_iff.2 hok) hnot
    · rfl
  cases kind with
  | pin => exact hmap (pin?_cases s) h
  | flag => exact (flag?_cases s).resolve_left h
  | _ => exact hmap (integerIn_cases _ _ s) h

theorem isNameChar_of_numeral? {base n : Nat} {s : List Char} (h : numeral? base s = some n) :
    ∀ c ∈ s, isNameChar c = true ∨ c = '+' := by
  have hdigits : ∀ c ∈ withoutPlus s, isNameChar c = true := by
    unfold numeral? at h
    split at h
    · cases h
    · exact isNameChar_of_digitsFrom? h
  intro c hc
  unfold withoutPlus at hdigits
  split at hdigits
  · rcases List.mem_cons.1 hc with rfl | hc
    · exact Or.inr rfl
    · exact Or.inl (hdigits c hc)
  · exact Or.inl (hdigits c hc)

theorem isNameChar_of_integer? {n : Nat} {s : List Char} (h : integer? s = some n) :
    ∀ c ∈ s, isNameChar c = true ∨ c = '+' := by
  unfold integer? at h
  split at h
  case h_3 => exact isNameChar_of_numeral? h
  all_goals
    refine List.forall_mem_cons.2 ⟨Or.inl rfl, List.forall_mem_cons.2 ⟨Or.inl rfl, ?_⟩⟩
    exact isNameChar_of_numeral? h

/-- A value has no hash sign, and its quotes come in pairs. -/
theorem Reads.plain {kind : ValueKind} {s : List Char} (h : kind.Reads s) :
    '#' ∉ s ∧ s.count '"' % 2 = 0 := by
  have hall {t : List Char} (ht : ∀ c ∈ t, isNameChar c = true ∨ c = '+') :
      '#' ∉ t ∧ '"' ∉ t := by
    constructor
    · intro hmem
      exact absurd (ht _ hmem) (by decide)
    · intro hmem
      exact absurd (ht _ hmem) (by decide)
  by_cases hflag : kind = .flag
  · subst hflag
    rcases reads_flag_iff.1 h with rfl | rfl <;> decide
  · by_cases hpin : kind = .pin
    · subst hpin
      obtain ⟨n, hn, -⟩ := reads_pin_iff.1 h
      obtain ⟨hhash, hquote⟩ := hall (of_mem_pin hn)
      by_cases hquoted : ∃ rest, s = '"' :: rest
      · -- the two quotes around a pin are the only ones
        obtain ⟨rest, rfl⟩ := hquoted
        rw [of_unquote_pin hn]
        generalize unquote ('"' :: rest) = inner at hhash hquote
        simp [hhash, List.count_eq_zero_of_not_mem hquote]
      · have hbare : unquote s = s :=
          unquote_of_ne fun rest heq => hquoted ⟨rest, heq⟩
        rw [hbare] at hhash hquote
        exact ⟨hhash, by rw [List.count_eq_zero_of_not_mem hquote]⟩
    · obtain ⟨n, hn, -⟩ := (reads_iff_integer? hpin hflag).1 h
      obtain ⟨hhash, hquote⟩ := hall (isNameChar_of_integer? hn)
      exact ⟨hhash, by rw [List.count_eq_zero_of_not_mem hquote]⟩

end ValueKind

/-! ## A comment behind a line -/

section

open SettingsLine (withoutComment)

variable {g : List Char} (hg : ∀ c ∈ g, isBlank c = true)

include hg

theorem not_mem_of_blanks {c : Char} (hc : isBlank c = false) : c ∉ g := fun hmem =>
  Bool.false_ne_true (hc.symm.trans (hg c hmem))

/-- What is left of a text before its first hash sign does not change by a comment behind it. -/
theorem trimEnd_before_append_comment (s rest : List Char) :
    trimEnd (before '#' (s ++ (g ++ '#' :: rest))) = trimEnd (before '#' s) := by
  by_cases hhash : '#' ∈ s
  · rw [before_append_of_mem hhash]
  · have hnot : '#' ∉ s ++ g := by
      rw [List.mem_append, not_or]
      exact ⟨hhash, not_mem_of_blanks hg (by decide)⟩
    rw [← List.append_assoc, before_append hnot, before_eq_self hhash, trimEnd_append_blanks hg]

/-- **A comment behind a value** is taken away, or else no kind has the value, with the comment or
without it. -/
theorem withoutComment_append_comment (value rest : List Char) :
    withoutComment (value ++ (g ++ '#' :: rest)) = withoutComment value ∨
      (withoutComment (value ++ (g ++ '#' :: rest)) ≠ [] ∧ withoutComment value ≠ []) ∧
        ∀ kind : ValueKind, ¬kind.Reads (withoutComment (value ++ (g ++ '#' :: rest))) ∧
          ¬kind.Reads (withoutComment value) := by
  have hmem : '#' ∈ value ++ (g ++ '#' :: rest) := by simp
  have hne : value ++ (g ++ '#' :: rest) ≠ [] := List.ne_nil_of_mem hmem
  by_cases hhash : '#' ∈ value
  · -- both are cut at the same hash sign, or at none if it stands between quotes
    rw [withoutComment, withoutComment, before_append_of_mem hhash]
    split
    · exact Or.inl rfl
    · exact Or.inr ⟨⟨hne, List.ne_nil_of_mem hhash⟩, fun kind =>
        ⟨fun h => h.plain.1 hmem, fun h => h.plain.1 hhash⟩⟩
  · have hnot : '#' ∉ value ++ g := by
      rw [List.mem_append, not_or]
      exact ⟨hhash, not_mem_of_blanks hg (by decide)⟩
    have hcount : (value ++ g).count '"' = value.count '"' := by
      rw [List.count_append, List.count_eq_zero_of_not_mem (not_mem_of_blanks hg (by decide)),
        Nat.add_zero]
    rw [withoutComment, withoutComment, ← List.append_assoc, before_append hnot,
      before_eq_self hhash, hcount, List.append_assoc]
    split
    case isTrue => exact Or.inl (trim_append_blanks hg value)
    case isFalse hodd =>
      -- the comment belongs to the value, which had an odd number of quotes before
      refine Or.inr ⟨⟨hne, ?_⟩, fun kind =>
        ⟨fun h => h.plain.1 hmem, fun h => hodd h.plain.2⟩⟩
      rintro rfl
      exact hodd rfl

end

/-- A key with a hash sign names no field. -/
theorem Field.named?_of_hash {owner : Section} {key : List Char} (h : '#' ∈ key) :
    named? owner key = none := by
  cases hnamed : named? owner key with
  | none => rfl
  | some f =>
    obtain ⟨-, name, hname, rfl⟩ := of_named? hnamed
    have hchar := (f.names_isNameChar name hname).2 _ h
    cases hchar

namespace Reading

variable (r : Reading)

theorem assign_of_named?_eq_none {key value : List Char}
    (h : Field.named? r.owner key = none) : r.assign key value = .ok r := by
  rw [assign, h]

/-- Values that no kind has are refused with one error. -/
theorem assign_congr_of_not_reads {key value value' : List Char}
    (h : ∀ kind : ValueKind, ¬kind.Reads value ∧ ¬kind.Reads value') :
    r.assign key value = r.assign key value' := by
  unfold assign
  cases Field.named? r.owner key with
  | none => rfl
  | some f =>
    obtain ⟨hvalue, hvalue'⟩ := h f.kind
    simp only [ValueKind.read_of_not_reads hvalue, ValueKind.read_of_not_reads hvalue']

/-- A comment behind an assignment leaves its effect as it was, and so does one behind a line that
assigns nothing. -/
theorem apply_ofAssignment_append_comment {g : List Char} (hg : ∀ c ∈ g, isBlank c = true)
    (line rest : List Char) :
    r.apply (.ofAssignment (line ++ (g ++ '#' :: rest))) = r.apply (.ofAssignment line) := by
  by_cases hequals : '=' ∈ line
  · have hmem : '=' ∈ line ++ (g ++ '#' :: rest) := List.mem_append_left _ hequals
    obtain ⟨g', rest', hg', htrim, -⟩ :=
      trim_append_cons (a := '#') (by decide) (behind '=' line ++ g) rest
    have hvalue : trim (behind '=' (line ++ (g ++ '#' :: rest))) =
        trim (behind '=' line) ++ (g' ++ '#' :: rest') := by
      rw [behind_append_of_mem hequals, ← List.append_assoc, htrim, trim_append_blanks hg]
    rw [SettingsLine.ofAssignment, SettingsLine.ofAssignment, before_append_of_mem hequals, hvalue]
    generalize trim (before '=' line) = key
    obtain heq | ⟨⟨hne, hne'⟩, hreads⟩ :=
      withoutComment_append_comment hg' (trim (behind '=' line)) rest'
    · simp only [heq, hmem, hequals]
    · simp only [hmem, hequals, hne, hne', not_true_eq_false, false_or, or_false]
      split
      · rfl
      · exact r.assign_congr_of_not_reads hreads
  · have hsilent : SettingsLine.ofAssignment line = .silent := by
      rw [SettingsLine.ofAssignment, if_pos (Or.inl hequals)]
    -- an equals sign in the comment has a hash sign in what stands before it
    have hkey : '#' ∈ trim (before '=' (line ++ (g ++ '#' :: rest))) := by
      have hnot : '=' ∉ line ++ g := by
        rw [List.mem_append, not_or]
        exact ⟨hequals, not_mem_of_blanks hg (by decide)⟩
      refine mem_trim (by decide) ?_
      rw [← List.append_assoc, before_append_of_not_mem hnot]
      exact List.mem_append_right _ List.mem_cons_self
    rw [hsilent, SettingsLine.ofAssignment]
    split
    · rfl
    · exact r.assign_of_named?_eq_none (Field.named?_of_hash hkey)

end Reading

namespace SettingsLine

/-- What a line says that is not blank depends on its first character. -/
theorem ofText_of_trim {text line : List Char} {a : Char} (h : trim text = a :: line) :
    ofText text =
      if a = '#' then .silent
      else if a = '[' then .header ((headerName? (a :: line)).bind Section.named?)
      else ofAssignment (a :: line) := by
  rw [ofText, h]
  split
  case h_1 heq => cases heq
  case h_2 heq => rw [if_pos (List.cons.inj heq).1]
  case h_3 heq =>
    obtain ⟨rfl, rfl⟩ := List.cons.inj heq
    rfl
  case h_4 hhash hbracket =>
    have hno : a ≠ '#' := fun ha => hhash line (ha ▸ rfl)
    have hnone : a ≠ '[' := fun ha => hbracket line (ha ▸ rfl)
    rw [if_neg hno, if_neg hnone]

theorem headerName?_append_comment {g : List Char} (hg : ∀ c ∈ g, isBlank c = true)
    (line rest : List Char) : headerName? (line ++ (g ++ '#' :: rest)) = headerName? line := by
  rw [headerName?, headerName?, trimEnd_before_append_comment hg]

end SettingsLine

namespace Reading

/-- **A comment behind a line** leaves its effect as it was. -/
theorem step_append_comment (r : Reading) (line comment : List Char) :
    r.step (line ++ '#' :: comment) = r.step line := by
  obtain ⟨g, rest, hg, htrim, hstart⟩ := trim_append_cons (a := '#') (by decide) line comment
  unfold step
  cases hline : trim line with
  | nil =>
    -- all that was there are blanks, so the comment has the line for itself
    rw [hline, hstart hline] at htrim
    rw [SettingsLine.ofText_of_trim htrim, if_pos rfl, SettingsLine.ofText, hline]
  | cons a start =>
    rw [hline, List.cons_append] at htrim
    rw [SettingsLine.ofText_of_trim htrim, SettingsLine.ofText_of_trim hline, ← List.cons_append]
    split
    case isTrue => rfl
    case isFalse =>
      split
      case isTrue => rw [SettingsLine.headerName?_append_comment hg]
      case isFalse => exact r.apply_ofAssignment_append_comment hg (a :: start) rest

/-- Gaps at both ends of a line leave its effect as it was. -/
theorem step_gaps (r : Reading) {left right : List Char} (hleft : Gap left) (hright : Gap right)
    (line : List Char) : r.step (left ++ (line ++ right)) = r.step line := by
  unfold step SettingsLine.ofText
  rw [trim_blanks_append hleft.blank, trim_append_blanks hright.blank]

end Reading

/-! ## Lines in a text -/

/-- Whether a text ends where a line starts. -/
def LineStart (above : List Char) : Prop := ∀ c ∈ above.getLast?, c = '\n'

/-- Whether a text starts where a line ends, and which text is behind that end. -/
inductive LineEnd : List Char → List Char → Prop
  | last : LineEnd [] []
  | feed (rest : List Char) : LineEnd ('\n' :: rest) rest
  | returnFeed (rest : List Char) : LineEnd ('\r' :: '\n' :: rest) rest

/-- Whether a line says nothing: it is blank, or its first character behind a gap is a hash sign. -/
def Idle (line : List Char) : Prop :=
  (∀ c ∈ line, isBlank c = true) ∨ ∃ g text, Gap g ∧ line = g ++ '#' :: text

/-- A text before and after something was put into it that says nothing. -/
inductive Retouch : List Char → List Char → Prop
  /-- A comment is put behind a line. -/
  | comment {above line below rest text : List Char} (hstart : LineStart above)
      (hline : '\n' ∉ line) (hend : LineEnd below rest) (htext : '\n' ∉ text) :
      Retouch (above ++ (line ++ below)) (above ++ (line ++ '#' :: text ++ below))
  /-- Gaps are put around a line. -/
  | gaps {above line below rest left right : List Char} (hstart : LineStart above)
      (hline : '\n' ∉ line) (hend : LineEnd below rest) (hleft : Gap left) (hright : Gap right) :
      Retouch (above ++ (line ++ below)) (above ++ (left ++ (line ++ right) ++ below))
  /-- A line that says nothing is put between others. -/
  | line {above below line ending : List Char} (hstart : LineStart above) (hline : '\n' ∉ line)
      (hidle : Idle line) (hend : LineEnd ending below) :
      Retouch (above ++ below) (above ++ (line ++ ending))

theorem LineStart.nil : LineStart [] := fun _ hc => nomatch hc

theorem LineStart.append_newline {above : List Char} (h : LineStart above) (line : List Char) :
    LineStart (line ++ '\n' :: above) := by
  intro c hc
  cases above with
  | nil =>
    rw [List.getLast?_concat] at hc
    exact (Option.some.inj hc).symm
  | cons a above =>
    rw [List.append_cons, List.getLast?_append_of_ne_nil _ (List.cons_ne_nil _ _)] at hc
    exact h c hc

/-- **Every line of a text** has a place in it, behind the lines above it. -/
theorem exists_place {s line : List Char} {i : Nat} (h : (lines s)[i]? = some line) :
    ∃ above below rest, s = above ++ (line ++ below) ∧ LineStart above ∧ '\n' ∉ line ∧
      LineEnd below rest ∧ (lines above).length = i := by
  -- Induction on the length of the text: what is behind its first line feed is shorter.
  induction hn : s.length using Nat.strongRecOn generalizing s i with
  | _ n ih =>
    by_cases hfeed : '\n' ∈ s
    · obtain ⟨first, t, rfl, hfirst⟩ := List.eq_append_cons_of_mem hfeed
      rw [lines_append_newline hfirst] at h
      cases i with
      | zero =>
        obtain rfl : withoutReturn first = line := Option.some.inj h
        by_cases hreturn : first.getLast? = some '\r'
        · obtain ⟨text, rfl⟩ := List.getLast?_eq_some_iff.1 hreturn
          have htext : withoutReturn (text ++ ['\r']) = text := by
            rw [withoutReturn, if_pos hreturn, List.dropLast_concat]
          rw [htext]
          refine ⟨[], _, t, by simp, .nil, fun hmem => ?_, .returnFeed t, rfl⟩
          exact hfirst (List.mem_append_left _ hmem)
        · have htext : withoutReturn first = first := if_neg hreturn
          rw [htext]
          exact ⟨[], _, t, by simp, .nil, hfirst, .feed t, rfl⟩
      | succ i =>
        have hshort : t.length < n := by
          rw [← hn, List.length_append, List.length_cons]
          omega
        obtain ⟨above, below, rest, rfl, hstart, hline, hend, hlength⟩ := ih _ hshort h rfl
        refine ⟨first ++ '\n' :: above, below, rest, by simp, hstart.append_newline first, hline,
          hend, ?_⟩
        rw [lines_append_newline hfirst, List.length_cons, hlength]
    · by_cases hnil : s = []
      · subst hnil
        cases h
      · rw [lines_of_newline hnil hfeed] at h
        cases i with
        | zero =>
          obtain rfl : s = line := Option.some.inj h
          exact ⟨[], [], [], by simp, .nil, hfeed, .last, rfl⟩
        | succ i => cases h

/-! ## What retouching leaves as it was -/

namespace Reading

theorem steps_append (r : Reading) (texts rest : List (List Char)) :
    r.steps (texts ++ rest) = (r.steps texts).bind fun q => q.steps rest := by
  induction texts generalizing r with
  | nil => rfl
  | cons text texts ih =>
    rw [List.cons_append, steps, steps]
    cases r.step text with
    | ok q => exact ih q
    | error e => rfl

/-- What the lines of a text do that starts with a line. -/
theorem steps_lines_append (r : Reading) {line below rest : List Char} (hline : '\n' ∉ line)
    (hend : LineEnd below rest) :
    r.steps (lines (line ++ below)) = (r.step line).bind fun q => q.steps (lines rest) := by
  have hfeed {text : List Char} (htext : '\n' ∉ text) :
      r.steps (lines (text ++ '\n' :: rest)) =
        (r.step text).bind fun q => q.steps (lines rest) := by
    rw [lines_append_newline htext, steps, step_withoutReturn]
    cases r.step text <;> rfl
  cases hend with
  | last =>
    rw [List.append_nil]
    by_cases hnil : line = []
    · subst hnil
      rfl
    · rw [lines_of_newline hnil hline, steps]
      cases r.step line <;> rfl
  | feed => exact hfeed hline
  | returnFeed =>
    have hreturn : '\n' ∉ line ++ ['\r'] := by simp [hline]
    have hblank : ∀ c ∈ ['\r'], isBlank c = true := List.forall_mem_singleton.2 (by decide)
    have hstep : r.step (line ++ ['\r']) = r.step line := by
      unfold step SettingsLine.ofText
      rw [trim_append_blanks hblank]
    rw [List.append_cons, hfeed hreturn, hstep]

/-- A line that says nothing has no effect. -/
theorem step_of_idle (r : Reading) {line : List Char} (h : Idle line) : r.step line = .ok r := by
  obtain hblank | ⟨g, text, hg, rfl⟩ := h
  · have hnil : trim line = [] := trim_append_blanks hblank []
    rw [step, SettingsLine.ofText, hnil]
    rfl
  · have hgap : r.step g = .ok r := congrArg r.apply (Filler.gap hg).ofText
    rw [step_append_comment, hgap]

/-- **A retouched text** does what it did before. -/
theorem steps_retouch {s t : List Char} (h : Retouch s t) (r : Reading) :
    r.steps (lines t) = r.steps (lines s) := by
  have habove {above x y : List Char} (hstart : LineStart above)
      (hsame : ∀ q : Reading, q.steps (lines x) = q.steps (lines y)) :
      r.steps (lines (above ++ x)) = r.steps (lines (above ++ y)) := by
    rw [lines_append hstart, lines_append hstart, steps_append, steps_append]
    exact congrArg _ (funext hsame)
  cases h with
  | @comment above line below rest text hstart hline hend htext =>
    refine habove hstart fun q => ?_
    have hcomment : '\n' ∉ line ++ '#' :: text := by simp [hline, htext]
    rw [q.steps_lines_append hcomment hend, q.steps_lines_append hline hend, q.step_append_comment]
  | @gaps above line below rest left right hstart hline hend hleft hright =>
    refine habove hstart fun q => ?_
    have hgaps : '\n' ∉ left ++ (line ++ right) := by simp [hline, hleft.newline, hright.newline]
    rw [q.steps_lines_append hgaps hend, q.steps_lines_append hline hend,
      q.step_gaps hleft hright]
  | line hstart hline hidle hend =>
    refine habove hstart fun q => ?_
    rw [q.steps_lines_append hline hend, q.step_of_idle hidle]
    rfl

end Reading

namespace Settings

/-- **Comments and spacing are inert.** Every line of a text has a place in it, and a comment behind
a line, gaps around it, and lines between others that say nothing leave the settings that are read
as they were, and also the error. -/
theorem read_retouch :
    (∀ (text : String) (i : Nat) (line : List Char), (lines text.toList)[i]? = some line →
        ∃ above below rest, text.toList = above ++ (line ++ below) ∧ LineStart above ∧
          '\n' ∉ line ∧ LineEnd below rest ∧ (lines above).length = i) ∧
      ∀ text retouched : String, Retouch text.toList retouched.toList →
        read retouched = read text := by
  refine ⟨fun text i line h => exists_place h, fun text retouched h => ?_⟩
  rw [read, read, Reading.steps_retouch h]

/-- Behind an odd number of quotes: with the comment the value is quoted text. -/
theorem read_retouch_oddQuote :
    (lines "hue\nled_pin = \"7\r\n".toList)[1]? = some "led_pin = \"7".toList ∧
      Retouch "hue\nled_pin = \"7\r\n".toList "hue\nled_pin = \"7# \"\r\n".toList ∧
      read "hue\nled_pin = \"7# \"\r\n" = .error .badPin := by
  obtain ⟨-, hread⟩ := read_retouch
  have hstart : LineStart "hue\n".toList := LineStart.nil.append_newline "hue".toList
  have hline : '\n' ∉ "led_pin = \"7".toList := by decide
  have hcomment : '\n' ∉ " \"".toList := by decide
  have hplace := Retouch.comment hstart hline (.returnFeed []) hcomment
  have hretouch : Retouch "hue\nled_pin = \"7\r\n".toList
      "hue\nled_pin = \"7# \"\r\n".toList := hplace
  exact ⟨by decide, hretouch, (hread _ _ hretouch).trans (by decide)⟩

end Settings

end StatusPanel
