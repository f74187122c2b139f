import StatusPanel.Proofs.Settings.Range
import StatusPanel.Proofs.Settings.Values

/-!
# Spellings of a value

A value can be written in several ways. An integer is decimal, or hexadecimal with letters of either
case; a pin may stand behind a word and between quotes; and a number may have zeros in front. Every
spelling of a value that its kind has is read as that value.

## Main definitions

* `Text.WritesDigits`: the digits of a number, zeros in front and letters of either case
* `WritesInteger`, `WritesPin`: the spellings of integers and pins
* `ValueKind.Writes`: the spellings of a value of a kind
* `Plain`: text that a comment behind it does not change

## Main results

* `Text.numeral?_of_writes`: digits are read as their number
* `ValueKind.plain_of_writes`: every spelling is plain
* `ValueKind.read_of_writes`: every spelling is read as its value
-/

namespace StatusPanel

/-! ## Digits -/

namespace Text

/-- The digits of a number in a base, with zeros in front and letters of either case. -/
def WritesDigits (base n : Nat) (s : List Char) : Prop :=
  ∃ zeros digits, s = List.replicate zeros '0' ++ digits ∧
    digits.map Char.toLower = Nat.toDigits base n

theorem digitsFrom?_map_toLower (base acc : Nat) (s : List Char) :
    digitsFrom? base acc (s.map Char.toLower) = digitsFrom? base acc s := by
  induction s generalizing acc with
  | nil => rfl
  | cons c s ih => simp only [List.map_cons, digitsFrom?, digitValue?, hexDigit?_toLower, ih]

/-- Zeros in front do not count. -/
theorem digitsFrom?_zeros {base : Nat} (hbase : 0 < base) (zeros : Nat) (s : List Char) :
    digitsFrom? base 0 (List.replicate zeros '0' ++ s) = digitsFrom? base 0 s := by
  have hzero : digitValue? base '0' = some 0 := by
    have hhex : hexDigit? '0' = some 0 := by decide
    rw [digitValue?, hhex, Option.filter_some, if_pos (decide_eq_true hbase)]
  induction zeros with
  | zero => rfl
  | succ zeros ih =>
    rw [List.replicate_succ, List.cons_append, digitsFrom?, hzero, Option.bind_some, Nat.zero_mul]
    exact ih

section

variable {base n : Nat} {s : List Char} (hlo : 1 < base) (hhi : base ≤ 16)
  (h : WritesDigits base n s)

include h

theorem WritesDigits.ne_nil : s ≠ [] := by
  obtain ⟨zeros, digits, rfl, hdigits⟩ := h
  rintro hnil
  obtain ⟨-, rfl⟩ := List.append_eq_nil_iff.1 hnil
  exact Nat.toDigits_ne_nil hdigits.symm

include hlo hhi

theorem digitsFrom?_of_writes : digitsFrom? base 0 s = some n := by
  obtain ⟨zeros, digits, rfl, hdigits⟩ := h
  rw [digitsFrom?_zeros (Nat.zero_lt_of_lt hlo), ← digitsFrom?_map_toLower, hdigits]
  exact digitsFrom?_toDigits hlo hhi n

/-- Digits are read as the number that they write. -/
theorem numeral?_of_writes : numeral? base s = some n :=
  numeral?_of_digitsFrom? h.ne_nil (digitsFrom?_of_writes hlo hhi h)

end

end Text

/-! ## Values -/

open Text

/-- The spellings of an integer. -/
inductive WritesInteger (n : Nat) : List Char → Prop
  | decimal {s : List Char} (h : WritesDigits 10 n s) : WritesInteger n s
  | hexadecimal {mark : Char} (hmark : mark = 'x' ∨ mark = 'X') {s : List Char}
      (h : WritesDigits 16 n s) : WritesInteger n ('0' :: mark :: s)

/-- The words that may stand before the number of a pin. -/
def pinWords : List (List Char) := [[], "gpio".toList, "GP".toList]

/-- The spellings of a pin. -/
inductive WritesPin (n : Nat) : List Char → Prop
  | bare {word s : List Char} (hword : word ∈ pinWords) (h : WritesDigits 10 n s) :
      WritesPin n (word ++ s)
  | quoted {word s : List Char} (hword : word ∈ pinWords) (h : WritesDigits 10 n s) :
      WritesPin n ('"' :: (word ++ s ++ ['"']))

/-- The spellings of a value of a kind. -/
def ValueKind.Writes : (kind : ValueKind) → kind.Value → List Char → Prop
  | .pin, v, s => WritesPin (UInt8.toNat v) s
  | .flag, v, s => s = if v = true then "true".toList else "false".toList
  | kind, v, s => WritesInteger (kind.number v) s

/-! ### Plain text -/

/-- Text that stands in one line and that a comment behind it does not change. -/
structure Plain (s : List Char) : Prop where
  ne_nil : s ≠ []
  trimmed : Trimmed s
  newline : '\n' ∉ s
  hash : '#' ∉ s
  /-- A hash sign behind the text is not between quotes. -/
  quotes : s.count '"' % 2 = 0

theorem plain_of_isNameChar {s : List Char} (hne : s ≠ [])
    (h : ∀ c ∈ s, isNameChar c = true) : Plain s where
  ne_nil := hne
  trimmed := trimmed_of_isNameChar h
  newline := not_mem_of_isNameChar h (by decide)
  hash := not_mem_of_isNameChar h (by decide)
  quotes := by rw [List.count_eq_zero_of_not_mem (not_mem_of_isNameChar h (by decide))]

theorem plain_quoted {s : List Char} (h : ∀ c ∈ s, isNameChar c = true) :
    Plain ('"' :: (s ++ ['"'])) where
  ne_nil := List.cons_ne_nil _ _
  trimmed := by
    constructor
    case head =>
      intro c hc
      obtain rfl := Option.some.inj hc
      decide
    case last =>
      intro c hc
      rw [← List.cons_append, List.getLast?_concat] at hc
      obtain rfl := Option.some.inj hc
      decide
  newline := by simpa using not_mem_of_isNameChar h (by decide)
  hash := by simpa using not_mem_of_isNameChar h (by decide)
  quotes := by
    have hnone := List.count_eq_zero_of_not_mem (not_mem_of_isNameChar h
      (by decide : isNameChar '"' = false))
    simp [hnone]

section

variable {n : Nat} {s : List Char}

theorem isNameChar_of_writesDigits {base : Nat} (hlo : 1 < base) (hhi : base ≤ 16)
    (h : WritesDigits base n s) : ∀ c ∈ s, isNameChar c = true :=
  isNameChar_of_digitsFrom? (digitsFrom?_of_writes hlo hhi h)

theorem WritesInteger.plain (h : WritesInteger n s) : Plain s := by
  cases h with
  | decimal h =>
    exact plain_of_isNameChar h.ne_nil (isNameChar_of_writesDigits (by decide) (by decide) h)
  | hexadecimal hmark h =>
    have hdigits := isNameChar_of_writesDigits (by decide) (by decide) h
    refine plain_of_isNameChar (List.cons_ne_nil _ _) ?_
    apply List.forall_mem_cons.2 ⟨by decide, List.forall_mem_cons.2 ⟨?_, hdigits⟩⟩
    rcases hmark with rfl | rfl <;> decide

theorem isNameChar_of_mem_pinWords {word : List Char} (hword : word ∈ pinWords)
    (h : WritesDigits 10 n s) : ∀ c ∈ word ++ s, isNameChar c = true := by
  have hwords : ∀ word ∈ pinWords, word.all isNameChar = true := by decide
  intro c hc
  rcases List.mem_append.1 hc with hc | hc
  · exact List.all_eq_true.1 (hwords word hword) c hc
  · exact isNameChar_of_writesDigits (by decide) (by decide) h c hc

theorem WritesPin.plain (h : WritesPin n s) : Plain s := by
  cases h with
  | bare hword h =>
    exact plain_of_isNameChar (List.append_ne_nil_of_right_ne_nil _ h.ne_nil)
      (isNameChar_of_mem_pinWords hword h)
  | quoted hword h => exact plain_quoted (isNameChar_of_mem_pinWords hword h)

end

/-- Every spelling of a value is plain. -/
theorem ValueKind.plain_of_writes {kind : ValueKind} {v : kind.Value} {s : List Char}
    (h : kind.Writes v s) : Plain s := by
  cases kind with
  | pin => exact WritesPin.plain h
  | flag =>
    have hbool (b : Bool) : Plain (if b = true then "true".toList else "false".toList) := by
      cases b <;> exact plain_of_isNameChar (by decide) (List.all_eq_true.1 (by decide))
    exact h ▸ hbool v
  | _ => exact WritesInteger.plain h

/-! ### Reading -/

/-- Every spelling of an integer is read as that integer. -/
theorem integer?_of_writes {n : Nat} {s : List Char} (h : WritesInteger n s) :
    integer? s = some n := by
  cases h with
  | decimal h =>
    exact integer?_of_numeral? (numeral?_of_writes (by decide) (by decide) h)
  | hexadecimal hmark h =>
    have hvalue := numeral?_of_writes (by decide) (by decide) h
    rcases hmark with rfl | rfl
    · exact hvalue
    · exact hvalue

/-- Every spelling of a pin is read as that pin. -/
theorem pin?_of_writes {n : Nat} (hle : n ≤ lastPin) {s : List Char} (h : WritesPin n s) :
    pin? s = .ok n := by
  have hnumber {word digits : List Char} (hword : word ∈ pinWords)
      (h : WritesDigits 10 n digits) :
      numeral? 10 (withoutPinWord (word ++ digits)) = some n := by
    have hvalue := digitsFrom?_of_writes (by decide) (by decide) h
    -- no word but the one in front is taken away: digits begin none
    have hword' : withoutPinWord (word ++ digits) = digits := by
      simp only [pinWords, List.mem_cons, List.not_mem_nil, or_false] at hword
      rcases hword with rfl | rfl | rfl
      · exact withoutPinWord_of_isDigit (isDigit_of_digitsFrom? hvalue)
      · rfl
      · rfl
    rw [hword']
    exact numeral?_of_writes (by decide) (by decide) h
  rw [pin?_eq_ok_iff]
  refine ⟨?_, hle⟩
  cases h with
  | @bare word digits hword h =>
    -- a bare pin has no quote that could be taken away
    have hquote : '"' ∉ word ++ digits :=
      not_mem_of_isNameChar (isNameChar_of_mem_pinWords hword h) (by decide)
    have hbare : unquote (word ++ digits) = word ++ digits :=
      unquote_of_ne fun rest heq => hquote (heq ▸ List.mem_cons_self)
    rw [hbare]
    exact hnumber hword h
  | quoted hword h =>
    rw [unquote_quoted]
    exact hnumber hword h

theorem integerIn_of_writes {lo hi n : Nat} {s : List Char} (h : WritesInteger n s)
    (hlo : lo ≤ n) (hhi : n < hi) : integerIn lo hi s = .ok n :=
  integerIn_eq_ok_iff.2 ⟨integer?_of_writes h, hlo, hhi⟩

/-- **Every spelling of a value** that its kind has is read as that value. -/
theorem ValueKind.read_of_writes {kind : ValueKind} {v : kind.Value} (hv : kind.InRange v)
    {s : List Char} (h : kind.Writes v s) : kind.read s = .ok v := by
  obtain ⟨hlo, hhi⟩ := hv
  cases kind with
  | byte | positiveByte | busAddress =>
    have hinteger := integerIn_of_writes h hlo (Nat.lt_succ_of_le hhi)
    exact (congrArg (Except.map UInt8.ofNat) hinteger).trans (congrArg Except.ok UInt8.ofNat_toNat)
  | half | positiveHalf =>
    have hinteger := integerIn_of_writes h hlo (Nat.lt_succ_of_le hhi)
    exact (congrArg (Except.map UInt16.ofNat) hinteger).trans
      (congrArg Except.ok UInt16.ofNat_toNat)
  | word | positiveWord =>
    have hinteger := integerIn_of_writes h hlo (Nat.lt_succ_of_le hhi)
    exact (congrArg (Except.map UInt32.ofNat) hinteger).trans
      (congrArg Except.ok UInt32.ofNat_toNat)
  | pin =>
    have hpin := pin?_of_writes hhi h
    exact (congrArg (Except.map UInt8.ofNat) hpin).trans (congrArg Except.ok UInt8.ofNat_toNat)
  | flag =>
    have hbool (b : Bool) :
        flag? (if b = true then "true".toList else "false".toList) = .ok b := by
      cases b <;> rfl
    rw [read, h]
    exact hbool v

end StatusPanel
