import Mathlib.Data.List.Basic
import StatusPanel.Build.Document.Basic
import StatusPanel.Build.Document.Key
import StatusPanel.Proofs.Settings.Acceptance
import StatusPanel.Proofs.Settings.Values

/-!
# Written values

Numbers are written in decimal, truth values as words, and text between double quotes with escapes
for what cannot stand there. The settings reader knows no escapes and takes a hash sign for the
start of a comment. All the same it reads exactly the values that are of the kind it expects: text
is read for a pin only, and nothing that has to be escaped and nothing with a hash sign is a pin.

## Main definitions

* `Document.Value.isScalar`: the values that stand in a line
* `Document.quote`, `Document.valueText`: how they are written
* `Document.Value.Fits`: whether a value is one that fields of a kind take

## Main results

* `Document.reads_pin_quote_iff`: quoted text as a pin
* `Document.reads_toDigits_iff`, `Document.not_reads_minus`, `Document.reads_boolean_iff`: numbers
  and truth values
* `Document.reads_valueText_iff`: a written value is read if it fits
-/

namespace StatusPanel.Document

open Text

/-! ## Writing -/

/-- Whether a value is quoted text, a number or a truth value. -/
def Value.isScalar : Value → Bool
  | .string _ | .integer _ | .boolean _ => true
  | .float _ | .array _ | .table _ => false

/-- A character between double quotes, behind a backslash if it cannot stand there. Those that can
only be written by their code points have no more than two hexadecimal digits. -/
def escape (c : Char) : List Char :=
  if c = '"' ∨ c = '\\' then ['\\', c]
  else if isTextChar c then [c]
  else ['\\', 'u', '0', '0', Nat.digitChar (c.toNat / 16), Nat.digitChar (c.toNat % 16)]

/-- A text between double quotes. -/
def quote (text : List Char) : List Char := '"' :: (text.flatMap escape ++ ['"'])

/-- A value that stands in a line. -/
def valueText : Value → List Char
  | .string text => quote text.toList
  | .integer n => (toString n).toList
  | .boolean b => (toString b).toList
  | .float _ | .array _ | .table _ => []

/-! ## Characters -/

theorem isTextChar_of_isNameChar {c : Char} (h : isNameChar c = true) : isTextChar c = true := by
  have hrange := isNameChar_iff.1 h
  have hspace : ' ' ≤ c := by
    rw [Char.le_def, UInt32.le_iff_toNat_le]
    show 32 ≤ c.toNat
    omega
  have hdelete : c ≠ '\x7f' := by
    rintro rfl
    exact absurd hrange (by decide)
  simp [isTextChar, hspace, hdelete]

/-! ## Quoted text -/

theorem escape_cases (c : Char) :
    (escape c = [c] ∧ c ≠ '"' ∧ c ≠ '\\' ∧ isTextChar c = true) ∨
      ∃ rest, escape c = '\\' :: rest ∧ '\n' ∉ rest := by
  unfold escape
  split
  case isTrue h =>
    right
    refine ⟨[c], rfl, ?_⟩
    rcases h with rfl | rfl <;> decide
  case isFalse h =>
    obtain ⟨hquote, hslash⟩ := not_or.1 h
    split
    case isTrue htext => exact Or.inl ⟨rfl, hquote, hslash, htext⟩
    case isFalse =>
      right
      refine ⟨_, rfl, ?_⟩
      have hdigit : ∀ n, Nat.digitChar n ≠ '\n' := by
        intro n
        by_cases hn : n < 16
        · have hall : ∀ n < 16, Nat.digitChar n ≠ '\n' := by decide
          exact hall n hn
        · unfold Nat.digitChar
          simp [show ∀ k < 16, n ≠ k from fun k hk hnk => hn (hnk ▸ hk)]
      simp [Ne.symm (hdigit _)]

theorem newline_not_mem_quote (text : List Char) : '\n' ∉ quote text := by
  have hescape : ∀ c, '\n' ∉ escape c := by
    intro c hmem
    obtain ⟨heq, -, -, htext⟩ | ⟨rest, heq, hrest⟩ := escape_cases c
    · rw [heq, List.mem_singleton] at hmem
      subst hmem
      exact absurd htext (by decide)
    · rw [heq] at hmem
      exact hrest ((List.mem_cons.1 hmem).resolve_left (by decide))
  intro hmem
  simp only [quote, List.mem_cons, List.mem_append, List.mem_flatMap, List.not_mem_nil,
    or_false] at hmem
  obtain heq | ⟨c, -, hc⟩ | heq := hmem
  · exact absurd heq (by decide)
  · exact hescape c hc
  · exact absurd heq (by decide)

theorem trimmed_quote (text : List Char) : Trimmed (quote text) where
  head c hc := by
    obtain rfl := Option.some.inj hc
    decide
  last c hc := by
    rw [quote, ← List.cons_append, List.getLast?_concat] at hc
    obtain rfl := Option.some.inj hc
    decide

theorem flatMap_escape_of_forall {text : List Char}
    (h : ∀ c ∈ text, c ≠ '"' ∧ c ≠ '\\' ∧ isTextChar c = true) : text.flatMap escape = text := by
  induction text with
  | nil => rfl
  | cons c text ih =>
    obtain ⟨⟨hquote, hslash, htext⟩, hrest⟩ := List.forall_mem_cons.1 h
    rw [List.flatMap_cons, ih hrest, escape, if_neg (not_or.2 ⟨hquote, hslash⟩), if_pos htext]
    rfl

/-- A text without a backslash when it is quoted needs no escapes. -/
theorem flatMap_escape_eq_self {text : List Char} (h : '\\' ∉ text.flatMap escape) :
    text.flatMap escape = text := by
  induction text with
  | nil => rfl
  | cons c text ih =>
    rw [List.flatMap_cons, List.mem_append, not_or] at h
    rw [List.flatMap_cons, ih h.2]
    obtain ⟨heq, -⟩ | ⟨rest, heq, -⟩ := escape_cases c
    · rw [heq]
      rfl
    · rw [heq] at h
      exact absurd List.mem_cons_self h.1

/-- A double quote in a quoted text has a backslash before it. -/
theorem backslash_mem_of_quote_mem {text u : List Char} (hu : u <+: text.flatMap escape)
    (hquote : '"' ∈ u) : '\\' ∈ u := by
  induction text generalizing u with
  | nil =>
    rw [List.flatMap_nil, List.prefix_nil] at hu
    subst hu
    cases hquote
  | cons c text ih =>
    rw [List.flatMap_cons] at hu
    obtain ⟨a, t, rfl⟩ := List.exists_cons_of_ne_nil (List.ne_nil_of_mem hquote)
    obtain ⟨heq, hne, -⟩ | ⟨rest, heq, -⟩ := escape_cases c
    · rw [heq, List.singleton_append, List.cons_prefix_cons] at hu
      obtain ⟨rfl, ht⟩ := hu
      exact List.mem_cons_of_mem _ (ih ht ((List.mem_cons.1 hquote).resolve_left hne.symm))
    · rw [heq, List.cons_append, List.cons_prefix_cons] at hu
      rw [hu.1]
      exact List.mem_cons_self

/-! ## Values without their comments -/

open SettingsLine (withoutComment)

theorem withoutComment_of_trimmed {s : List Char} (h : Trimmed s) (hhash : '#' ∉ s) :
    withoutComment s = s := by
  rw [withoutComment, before_eq_self hhash, trim_of_trimmed h, ite_self]

/-- Quoted text without what looks like a comment is the quoted text, or an initial part of it that
ends before a hash sign. -/
theorem withoutComment_quote (text : List Char) :
    ∃ rest, withoutComment (quote text) = '"' :: rest ∧
      (rest = text.flatMap escape ++ ['"'] ∨ rest <+: text.flatMap escape) := by
  by_cases hhash : '#' ∈ text.flatMap escape
  · have hbefore : before '#' (quote text) = '"' :: before '#' (text.flatMap escape) := by
      rw [quote, ← before_append_of_mem hhash ['"']]
      rfl
    obtain ⟨rest, htrim, hrest⟩ := trim_cons (a := '"') (by decide)
      (before '#' (text.flatMap escape))
    rw [withoutComment, hbefore]
    split
    · exact ⟨rest, htrim, Or.inr (hrest.trans (before_prefix_self _ _))⟩
    · exact ⟨_, rfl, Or.inl rfl⟩
  · have hnot : '#' ∉ quote text := by
      simp only [quote, List.mem_cons, List.mem_append, List.not_mem_nil, or_false, not_or]
      exact ⟨by decide, hhash, by decide⟩
    exact ⟨_, withoutComment_of_trimmed (trimmed_quote text) hnot, Or.inl rfl⟩

/-! ## Values that fit -/

/-- Whether a value is one that fields of a kind take. Text is taken for a pin only. -/
def Value.Fits (kind : ValueKind) : Value → Prop
  | .integer n => kind ≠ .flag ∧ (kind.least : Int) ≤ n ∧ n ≤ kind.greatest
  | .boolean _ => kind = .flag
  | .string text =>
    kind = .pin ∧ ∃ n, numeral? 10 (withoutPinWord text.toList) = some n ∧ n ≤ lastPin
  | .float _ | .array _ | .table _ => False

/-- Quoted text is read as a pin if what is quoted is one. -/
theorem reads_pin_quote_iff {text : List Char} :
    ValueKind.pin.Reads (withoutComment (quote text)) ↔
      ∃ n, numeral? 10 (withoutPinWord text) = some n ∧ n ≤ lastPin := by
  rw [ValueKind.reads_pin_iff]
  have hslash : isNameChar '\\' = false ∧ '\\' ≠ '+' := by decide
  constructor
  · rintro ⟨n, hn, hle⟩
    obtain ⟨rest, heq, hrest⟩ := withoutComment_quote text
    rw [heq] at hn
    have hend := of_unquote_pin hn
    have hnone := not_mem_of_pin hn hslash
    generalize unquote ('"' :: rest) = inner at hn hend hnone
    subst hend
    rcases hrest with hall | hinitial
    · -- the quoted text is complete, and nothing in it is escaped
      obtain rfl := List.append_cancel_right hall
      rw [flatMap_escape_eq_self hnone] at hn
      exact ⟨n, hn, hle⟩
    · -- cut off before a hash sign, it would have to end with an escaped quote
      have hmem := backslash_mem_of_quote_mem hinitial (List.mem_append_right _ (by simp))
      rcases List.mem_append.1 hmem with hmem | hmem
      · exact absurd hmem hnone
      · exact absurd (List.mem_singleton.1 hmem) (by decide)
  · rintro ⟨n, hn, hle⟩
    have hplain : text.flatMap escape = text := by
      refine flatMap_escape_of_forall fun c hc => ⟨?_, ?_, ?_⟩
      · exact fun h => not_mem_of_pin hn (by decide) (h ▸ hc)
      · exact fun h => not_mem_of_pin hn hslash (h ▸ hc)
      · rcases of_mem_pin hn c hc with hname | rfl
        · exact isTextChar_of_isNameChar hname
        · decide
    have hhash : '#' ∉ quote text := by
      rw [quote, hplain]
      simp only [List.mem_cons, List.mem_append, List.not_mem_nil, or_false, not_or]
      exact ⟨by decide, not_mem_of_pin hn (by decide), by decide⟩
    rw [withoutComment_of_trimmed (trimmed_quote text) hhash, quote, hplain, unquote_quoted]
    exact ⟨n, hn, hle⟩

/-! ### Numbers and truth values -/

theorem valueText_natCast (n : Nat) : valueText (.integer n) = Nat.toDigits 10 n :=
  Nat.toList_repr

theorem valueText_negSucc (n : Nat) :
    valueText (.integer (.negSucc n)) = '-' :: Nat.toDigits 10 (n + 1) := by
  show ("-" ++ (n + 1).repr).toList = _
  rw [String.toList_append, Nat.toList_repr]
  rfl

theorem isDigit_toDigits (n : Nat) : ∀ c ∈ Nat.toDigits 10 n, c.isDigit = true :=
  fun _ hc => Nat.isDigit_of_mem_toDigits (by decide) (by decide) hc

/-- Numbers and truth values are written with the characters of names. -/
theorem isNameChar_valueText {value : Value} (hscalar : value.isScalar = true)
    (hstring : ∀ text, value ≠ .string text) :
    valueText value ≠ [] ∧ ∀ c ∈ valueText value, isNameChar c = true := by
  cases value with
  | string text => exact absurd rfl (hstring text)
  | integer n =>
    cases n with
    | ofNat n =>
      rw [Int.ofNat_eq_natCast, valueText_natCast]
      exact ⟨Nat.toDigits_ne_nil, fun c hc => isNameChar_of_isDigit (isDigit_toDigits n c hc)⟩
    | negSucc n =>
      rw [valueText_negSucc]
      refine ⟨List.cons_ne_nil _ _, List.forall_mem_cons.2 ⟨by decide, fun c hc => ?_⟩⟩
      exact isNameChar_of_isDigit (isDigit_toDigits _ c hc)
  | boolean b => exact ⟨by cases b <;> decide, List.all_eq_true.1 (by cases b <;> rfl)⟩
  | float x => cases hscalar
  | array values => cases hscalar
  | table entries => cases hscalar

/-- Digits are read as the number that they write, by every kind but that of truth values. -/
theorem reads_toDigits_iff {kind : ValueKind} {n : Nat} :
    kind.Reads (Nat.toDigits 10 n) ↔ kind ≠ .flag ∧ kind.least ≤ n ∧ n ≤ kind.greatest := by
  have hdigits := isDigit_toDigits n
  have hnumeral := numeral?_toDigits n
  by_cases hflag : kind = .flag
  · subst hflag
    rw [ValueKind.reads_flag_iff]
    refine iff_of_false ?_ fun h => h.1 rfl
    -- no digit is a letter
    rintro (heq | heq)
    · exact absurd (hdigits 't' (heq ▸ by decide)) (by decide)
    · exact absurd (hdigits 'f' (heq ▸ by decide)) (by decide)
  · by_cases hpin : kind = .pin
    · subst hpin
      rw [ValueKind.reads_pin_iff, unquote_of_isDigit hdigits, withoutPinWord_of_isDigit hdigits,
        hnumeral]
      simp [ValueKind.least, ValueKind.greatest]
    · rw [ValueKind.reads_iff_integer? hpin hflag, integer?_of_numeral? hnumeral]
      simp [hflag]

/-- No kind has negative numbers. -/
theorem not_reads_minus {kind : ValueKind} {rest : List Char} : ¬kind.Reads ('-' :: rest) := by
  by_cases hflag : kind = .flag
  · subst hflag
    rw [ValueKind.reads_flag_iff]
    rintro (heq | heq)
    · exact absurd (List.cons.inj heq).1 (by decide)
    · exact absurd (List.cons.inj heq).1 (by decide)
  · by_cases hpin : kind = .pin
    · subst hpin
      have hnone : numeral? 10 (withoutPinWord (unquote ('-' :: rest))) = none := rfl
      rw [ValueKind.reads_pin_iff, hnone]
      simp
    · have hnone : StatusPanel.integer? ('-' :: rest) = none := rfl
      rw [ValueKind.reads_iff_integer? hpin hflag, hnone]
      simp

/-- Quoted text is read for a pin only. -/
theorem eq_pin_of_reads_quote {kind : ValueKind} {rest : List Char}
    (h : kind.Reads ('"' :: rest)) : kind = .pin := by
  by_contra hpin
  by_cases hflag : kind = .flag
  · subst hflag
    rcases ValueKind.reads_flag_iff.1 h with heq | heq
    · exact absurd (List.cons.inj heq).1 (by decide)
    · exact absurd (List.cons.inj heq).1 (by decide)
  · have hnone : StatusPanel.integer? ('"' :: rest) = none := rfl
    rw [ValueKind.reads_iff_integer? hpin hflag, hnone] at h
    simp at h

theorem reads_boolean_iff {kind : ValueKind} {b : Bool} :
    kind.Reads (valueText (.boolean b)) ↔ kind = .flag := by
  by_cases hflag : kind = .flag
  · subst hflag
    rw [ValueKind.reads_flag_iff]
    cases b <;> decide
  · refine iff_of_false ?_ hflag
    by_cases hpin : kind = .pin
    · subst hpin
      have hnone : numeral? 10 (withoutPinWord (unquote (valueText (.boolean b)))) = none := by
        cases b <;> rfl
      rw [ValueKind.reads_pin_iff, hnone]
      simp
    · have hnone : StatusPanel.integer? (valueText (.boolean b)) = none := by cases b <;> rfl
      rw [ValueKind.reads_iff_integer? hpin hflag, hnone]
      simp

/-- **Written values.** A value that was written is read by the kinds that it fits. -/
theorem reads_valueText_iff {kind : ValueKind} {value : Value} (hscalar : value.isScalar = true) :
    kind.Reads (withoutComment (valueText value)) ↔ value.Fits kind := by
  have hplain (hstring : ∀ text, value ≠ .string text) :
      withoutComment (valueText value) = valueText value := by
    have hname := (isNameChar_valueText hscalar hstring).2
    exact withoutComment_of_trimmed (trimmed_of_isNameChar hname)
      (not_mem_of_isNameChar hname (by decide))
  cases value with
  | string text =>
    constructor
    · intro h
      obtain ⟨rest, heq, -⟩ := withoutComment_quote text.toList
      have hpin : kind = .pin := eq_pin_of_reads_quote (heq ▸ h)
      subst hpin
      exact ⟨rfl, reads_pin_quote_iff.1 h⟩
    · rintro ⟨rfl, h⟩
      exact reads_pin_quote_iff.2 h
  | integer n =>
    rw [hplain nofun]
    cases n with
    | ofNat n =>
      rw [Int.ofNat_eq_natCast, valueText_natCast, reads_toDigits_iff, Value.Fits, Int.ofNat_le,
        Int.ofNat_le]
    | negSucc n =>
      rw [valueText_negSucc]
      refine iff_of_false not_reads_minus ?_
      rintro ⟨-, hle, -⟩
      omega
  | boolean b =>
    rw [hplain nofun]
    exact reads_boolean_iff
  | float x => cases hscalar
  | array values => cases hscalar
  | table entries => cases hscalar

end StatusPanel.Document
