import StatusPanel.Proofs.Settings.Retouching
import StatusPanel.Proofs.Text.Positional

/-!
# Written numbers

Which texts are integers and pins, and of which value. An integer is a decimal numeral, or a
hexadecimal one behind its mark; a pin is a decimal numeral that may stand behind a word, and both
of them between quotes. Nothing else is read, and what is read has the value that is written.

A reader that has words only keeps the value of a decimal numeral in a word of the size that is
asked for, and that of a hexadecimal one in a word of 32 bits, which it cuts afterwards. Both ways
lose what does not fit, and nothing more.

## Main definitions

* `IsInteger`, `IsPin`: the texts of an integer and of a pin
* `integerInWord?`, `pinInByte?`: integers and pins, read into words

## Main results

* `integer?_eq_some_iff`: exactly the texts of an integer are read as that integer
* `unquote_eq_iff`, `withoutPinWord_eq_iff`: what is taken away around the number of a pin
* `integerInWord?_eq`: what words lose
* `ValueKind.read_eq_ok_iff`: the values of a kind of integers
* `ValueKind.reads_numbers_exactly`: what is read as a number, and what is refused
-/

namespace StatusPanel

open Text

/-! ## Integers -/

/-- The texts of an integer: its decimal numerals, and its hexadecimal ones behind a mark. -/
inductive IsInteger (n : Nat) : List Char → Prop
  | decimal {s : List Char} (h : IsNumeral 10 n s) : IsInteger n s
  | hexadecimal {mark : Char} (hmark : mark = 'x' ∨ mark = 'X') {s : List Char}
      (h : IsNumeral 16 n s) : IsInteger n ('0' :: mark :: s)

/-- **Exactly the texts of an integer are read as that integer.** -/
theorem integer?_eq_some_iff {n : Nat} {s : List Char} :
    integer? s = some n ↔ IsInteger n s := by
  constructor
  · intro h
    unfold integer? at h
    split at h
    case h_1 => exact .hexadecimal (Or.inl rfl) ((numeral?_eq_some_iff (by decide)).1 h)
    case h_2 => exact .hexadecimal (Or.inr rfl) ((numeral?_eq_some_iff (by decide)).1 h)
    case h_3 => exact .decimal ((numeral?_eq_some_iff (by decide)).1 h)
  · intro h
    cases h with
    | decimal h => exact integer?_of_numeral? ((numeral?_eq_some_iff (by decide)).2 h)
    | hexadecimal hmark h =>
      have hvalue := (numeral?_eq_some_iff (by decide)).2 h
      rcases hmark with rfl | rfl
      · exact hvalue
      · exact hvalue

/-! ## Pins -/

/-- What is left of a text if a pair of quotes around it is taken away. -/
def IsUnquoted (s t : List Char) : Prop :=
  s = '"' :: (t ++ ['"']) ∨ t = s ∧ ∀ inner, s ≠ '"' :: (inner ++ ['"'])

/-- What is left of a text if one of the words of a pin in front of it is taken away. -/
def IsUnworded (s t : List Char) : Prop :=
  s = "gpio".toList ++ t ∨ s = "GP".toList ++ t ∨
    t = s ∧ ¬"gpio".toList <+: s ∧ ¬"GP".toList <+: s

/-- The texts of a pin: a decimal numeral of a pin of the chip, of which a pair of quotes and then a
word are taken away if they are there. -/
def IsPin (n : Nat) (s : List Char) : Prop :=
  ∃ inner digits, IsUnquoted s inner ∧ IsUnworded inner digits ∧ IsNumeral 10 n digits ∧ n ≤ 29

theorem isUnquoted_unquote (s : List Char) : IsUnquoted s (unquote s) := by
  unfold unquote
  split
  case h_1 rest =>
    split
    case isTrue hlast =>
      obtain ⟨inner, rfl⟩ := List.getLast?_eq_some_iff.1 hlast
      rw [List.dropLast_concat]
      exact Or.inl rfl
    case isFalse hlast =>
      refine Or.inr ⟨rfl, fun inner heq => hlast ?_⟩
      rw [(List.cons.inj heq).2, List.getLast?_concat]
  case h_2 hhead => exact Or.inr ⟨rfl, fun inner heq => hhead _ heq⟩

theorem unquote_eq_iff {s t : List Char} : unquote s = t ↔ IsUnquoted s t := by
  constructor
  · rintro rfl
    exact isUnquoted_unquote s
  · rintro (rfl | ⟨rfl, hnone⟩)
    · exact unquote_quoted t
    · exact (isUnquoted_unquote t).elim (fun h => absurd h (hnone _)) fun h => h.1

theorem isUnworded_withoutPinWord (s : List Char) : IsUnworded s (withoutPinWord s) := by
  unfold withoutPinWord
  split
  case h_1 => exact Or.inl rfl
  case h_2 => exact Or.inr (Or.inl rfl)
  case h_3 hgpio hgp =>
    refine Or.inr (Or.inr ⟨rfl, ?_, ?_⟩)
    · rintro ⟨rest, heq⟩
      exact hgpio rest heq.symm
    · rintro ⟨rest, heq⟩
      exact hgp rest heq.symm

theorem withoutPinWord_eq_iff {s t : List Char} : withoutPinWord s = t ↔ IsUnworded s t := by
  constructor
  · rintro rfl
    exact isUnworded_withoutPinWord s
  · rintro (rfl | rfl | ⟨rfl, hgpio, hgp⟩)
    · rfl
    · rfl
    · rcases isUnworded_withoutPinWord t with h | h | h
      · exact absurd ⟨_, h.symm⟩ hgpio
      · exact absurd ⟨_, h.symm⟩ hgp
      · exact h.1

/-- **Exactly the texts of a pin are read as that pin.** -/
theorem pin?_eq_ok_iff_isPin {n : Nat} {s : List Char} : pin? s = .ok n ↔ IsPin n s := by
  rw [pin?_eq_ok_iff, numeral?_eq_some_iff (by decide)]
  constructor
  · rintro ⟨hnumeral, hle⟩
    exact ⟨_, _, unquote_eq_iff.1 rfl, withoutPinWord_eq_iff.1 rfl, hnumeral, hle⟩
  · rintro ⟨inner, digits, hinner, hdigits, hnumeral, hle⟩
    rw [unquote_eq_iff.2 hinner, withoutPinWord_eq_iff.2 hdigits]
    exact ⟨hnumeral, hle⟩

/-! ## Words -/

/-- The value of an integer, read into words: a decimal numeral into one of the size that is asked
for, a hexadecimal numeral into one of 32 bits, which is then cut if that loses nothing. -/
def integerInWord? (size : Nat) : List Char → Option Nat
  | '0' :: 'x' :: digits => (numeralBelow? UInt32.size 16 digits).bind (below? size)
  | '0' :: 'X' :: digits => (numeralBelow? UInt32.size 16 digits).bind (below? size)
  | digits => numeralBelow? size 10 digits

/-- The number of a pin, read into a byte. -/
def pinInByte? (s : List Char) : Option Nat :=
  (numeralBelow? UInt8.size 10 (withoutPinWord (unquote s))).filter (· ≤ lastPin)

theorem bind_below? (x : Option Nat) (size : Nat) :
    x.bind (below? size) = x.filter (· < size) := by
  cases x with
  | none => rfl
  | some n =>
    rw [Option.bind_some, Option.filter_some, below?]
    simp only [decide_eq_true_eq]

/-- A wider word that is cut loses what a word of the size would lose. -/
theorem numeralBelow?_bind {size wide : Nat} (hpos : 0 < size) (hle : size ≤ wide)
    (digits : List Char) :
    (numeralBelow? wide 16 digits).bind (below? size) =
      (numeral? 16 digits).filter (· < size) := by
  rw [bind_below?, numeralBelow?_eq (Nat.lt_of_lt_of_le hpos hle) (by decide),
    Option.filter_filter]
  congr 1
  funext n
  rw [Bool.eq_iff_iff, Bool.and_eq_true, decide_eq_true_eq, decide_eq_true_eq]
  exact and_iff_right_of_imp fun h => Nat.lt_of_lt_of_le h hle

/-- Both ways to read an integer into words lose those that are too great, and no others. -/
theorem integerInWord?_eq {size : Nat} (hpos : 0 < size) (hle : size ≤ UInt32.size)
    (s : List Char) : integerInWord? size s = (integer? s).filter (· < size) := by
  unfold integerInWord?
  split
  case h_1 => exact numeralBelow?_bind hpos hle _
  case h_2 => exact numeralBelow?_bind hpos hle _
  case h_3 hx hX =>
    have hdecimal : integer? s = numeral? 10 s := by
      unfold integer?
      split
      case h_1 digits => exact absurd rfl (hx digits)
      case h_2 digits => exact absurd rfl (hX digits)
      case h_3 => rfl
    rw [hdecimal, numeralBelow?_eq hpos (by decide)]

/-! ## Values -/

theorem map_integerIn_eq_ok_iff {α : Type} {ofNat : Nat → α} {toNat : α → Nat} {lo hi : Nat}
    (hofNat : ∀ v, ofNat (toNat v) = v) (htoNat : ∀ n < hi, toNat (ofNat n) = n)
    {s : List Char} {v : α} :
    (integerIn lo hi s).map ofNat = .ok v ↔
      integer? s = some (toNat v) ∧ lo ≤ toNat v ∧ toNat v < hi := by
  rw [← integerIn_eq_ok_iff]
  constructor
  · intro h
    obtain ⟨n, hn, rfl⟩ := Except.exists_of_map_eq_ok h
    rw [htoNat n (integerIn_eq_ok_iff.1 hn).2.2]
    exact hn
  · intro h
    rw [h, Except.map, hofNat]

namespace ValueKind

/-- **The values of a kind of integers** are those in its range, written as integers. -/
theorem read_eq_ok_iff {kind : ValueKind} (hpin : kind ≠ .pin) (hflag : kind ≠ .flag)
    {s : List Char} {v : kind.Value} :
    kind.read s = .ok v ↔ IsInteger (kind.number v) s ∧ kind.InRange v := by
  have hlast {n greatest : Nat} {p q : Prop} :
      (p ∧ q ∧ n < greatest + 1) ↔ p ∧ q ∧ n ≤ greatest := by rw [Nat.lt_succ_iff]
  rw [← integer?_eq_some_iff]
  -- the cases are those of the words that hold the values
  cases kind with
  | pin => exact absurd rfl hpin
  | flag => exact absurd rfl hflag
  | byte | positiveByte | busAddress =>
    refine (map_integerIn_eq_ok_iff (fun _ => UInt8.ofNat_toNat) fun n hn => ?_).trans hlast
    exact UInt8.toNat_ofNat_of_lt' (Nat.lt_of_lt_of_le hn (by decide))
  | half | positiveHalf =>
    refine (map_integerIn_eq_ok_iff (fun _ => UInt16.ofNat_toNat) fun n hn => ?_).trans hlast
    exact UInt16.toNat_ofNat_of_lt' (Nat.lt_of_lt_of_le hn (by decide))
  | word | positiveWord =>
    refine (map_integerIn_eq_ok_iff (fun _ => UInt32.ofNat_toNat) fun n hn => ?_).trans hlast
    exact UInt32.toNat_ofNat_of_lt' (Nat.lt_of_lt_of_le hn (by decide))

/-- The values of pins are the pins. -/
theorem read_pin_eq_ok_iff {s : List Char} {v : UInt8} :
    pin.read s = .ok v ↔ IsPin v.toNat s := by
  rw [← pin?_eq_ok_iff_isPin]
  constructor
  · intro h
    obtain ⟨n, hn, rfl⟩ := Except.exists_of_map_eq_ok h
    have hle : n ≤ 29 := (pin?_eq_ok_iff.1 hn).2
    rw [UInt8.toNat_ofNat_of_lt' (Nat.lt_of_le_of_lt hle (by decide))]
    exact hn
  · intro h
    rw [read, h, Except.map, UInt8.ofNat_toNat]

/-- The kinds of integers that fill their words: every value of the word is one of the kind. -/
def wordKinds : List ValueKind := [.byte, .half, .word]

section

variable {kind : ValueKind} (h : kind ∈ wordKinds)

include h

theorem wordKinds_cases : kind = .byte ∨ kind = .half ∨ kind = .word := by
  simpa [wordKinds] using h

theorem inRange_of_mem_wordKinds (v : kind.Value) : kind.InRange v := by
  rcases wordKinds_cases h with rfl | rfl | rfl
  · exact ⟨Nat.zero_le _, Nat.le_of_lt_succ (UInt8.toNat_lt v)⟩
  · exact ⟨Nat.zero_le _, Nat.le_of_lt_succ (UInt16.toNat_lt v)⟩
  · exact ⟨Nat.zero_le _, Nat.le_of_lt_succ (UInt32.toNat_lt v)⟩

theorem exists_number_eq {n : Nat} (hn : n ≤ kind.greatest) :
    ∃ v : kind.Value, kind.number v = n := by
  rcases wordKinds_cases h with rfl | rfl | rfl
  · exact ⟨UInt8.ofNat n, UInt8.toNat_ofNat_of_lt' (Nat.lt_succ_of_le hn)⟩
  · exact ⟨UInt16.ofNat n, UInt16.toNat_ofNat_of_lt' (Nat.lt_succ_of_le hn)⟩
  · exact ⟨UInt32.ofNat n, UInt32.toNat_ofNat_of_lt' (Nat.lt_succ_of_le hn)⟩

theorem read_eq_ok_iff_isInteger {s : List Char} {v : kind.Value} :
    kind.read s = .ok v ↔ IsInteger (kind.number v) s := by
  have hpin : kind ≠ .pin := by
    rintro rfl
    exact absurd h (by decide)
  have hflag : kind ≠ .flag := by
    rintro rfl
    exact absurd h (by decide)
  rw [read_eq_ok_iff hpin hflag]
  exact and_iff_left (inRange_of_mem_wordKinds h v)

/-- What is read as a value of the kind is what is read into its word. -/
theorem toOption_read_eq (s : List Char) :
    (kind.read s).toOption.map kind.number = integerInWord? (kind.greatest + 1) s := by
  have hsize : kind.greatest + 1 ≤ UInt32.size := by
    rcases wordKinds_cases h with rfl | rfl | rfl <;> decide
  rw [integerInWord?_eq (Nat.succ_pos _) hsize]
  ext n
  rw [Option.map_eq_some_iff, Option.filter_eq_some_iff, decide_eq_true_eq, Nat.lt_succ_iff]
  have htoOption (v : kind.Value) : (kind.read s).toOption = some v ↔ kind.read s = .ok v := by
    cases kind.read s <;> simp [Except.toOption]
  simp only [htoOption, read_eq_ok_iff_isInteger h, ← integer?_eq_some_iff]
  constructor
  · rintro ⟨v, hv, rfl⟩
    exact ⟨hv, (inRange_of_mem_wordKinds h v).2⟩
  · rintro ⟨hn, hle⟩
    obtain ⟨v, rfl⟩ := exists_number_eq h hle
    exact ⟨v, hn, rfl⟩

end

/-- What is read as a pin is what is read into a byte. -/
theorem toOption_read_pin_eq (s : List Char) :
    (pin.read s).toOption.map UInt8.toNat = pinInByte? s := by
  have hread : pinInByte? s =
      (numeral? 10 (withoutPinWord (unquote s))).filter (· ≤ lastPin) := by
    rw [pinInByte?, numeralBelow?_eq (by decide) (by decide), Option.filter_filter]
    congr 1
    funext n
    rw [Bool.eq_iff_iff, Bool.and_eq_true, decide_eq_true_eq, decide_eq_true_eq]
    exact and_iff_right_of_imp fun h => Nat.lt_of_le_of_lt h (by decide)
  rw [hread, read, pin?]
  cases numeral? 10 (withoutPinWord (unquote s)) with
  | none => rfl
  | some n =>
    rw [Option.filter_some]
    by_cases hle : n ≤ lastPin
    · have hword : (UInt8.ofNat n).toNat = n :=
        UInt8.toNat_ofNat_of_lt' (Nat.lt_of_le_of_lt hle (by decide))
      simp only [if_pos hle, decide_eq_true hle, if_true, Except.map, Except.toOption,
        Option.map_some, hword]
    · simp only [if_neg hle, decide_eq_false hle, Except.map, Except.toOption, Option.map_none]
      rfl

/-- **What is read as a number.** For words of 8, 16 and 32 bits, exactly the integers that the word
holds are read, by their value, and every other text is refused as a bad value; a reader that has
words only reads the same. Exactly the pins are read, and every other text is refused as a bad
pin; they, too, may be read into a byte. -/
theorem reads_numbers_exactly (s : List Char) :
    (∀ kind ∈ wordKinds,
      (∀ v : kind.Value, kind.read s = .ok v ↔ IsInteger (kind.number v) s) ∧
      ((¬∃ v : kind.Value, IsInteger (kind.number v) s) → kind.read s = .error .badValue) ∧
      (kind.read s).toOption.map kind.number = integerInWord? (kind.greatest + 1) s) ∧
    (∀ v : UInt8, pin.read s = .ok v ↔ IsPin v.toNat s) ∧
    ((¬∃ v : UInt8, IsPin v.toNat s) → pin.read s = .error .badPin) ∧
    (pin.read s).toOption.map UInt8.toNat = pinInByte? s := by
  refine ⟨fun kind hkind => ⟨fun v => read_eq_ok_iff_isInteger hkind, fun hnone => ?_,
    toOption_read_eq hkind s⟩, fun v => read_pin_eq_ok_iff, fun hnone => ?_,
    toOption_read_pin_eq s⟩
  · have hrefusal : kind.refusal = .badValue := by
      rcases wordKinds_cases hkind with rfl | rfl | rfl <;> rfl
    rw [← hrefusal]
    exact read_of_not_reads fun ⟨v, hv⟩ => hnone ⟨v, (read_eq_ok_iff_isInteger hkind).1 hv⟩
  · exact read_of_not_reads fun ⟨v, hv⟩ => hnone ⟨v, read_pin_eq_ok_iff.1 hv⟩

/-- A sign behind the mark, zeros in front and letters of both cases; a number that takes one bit
more than a byte; and a pin with everything that may stand around it. -/
theorem reads_numbers_exactly_spellings :
    byte ∈ wordKinds ∧ byte.read "0X+0fF".toList = .ok 255 ∧
      byte.read "0x1FF".toList = .error .badValue ∧
      pin.read "\"GP+007\"".toList = .ok 7 ∧ pin.read "gpioGP7".toList = .error .badPin := by
  have hbyte : byte ∈ wordKinds := by decide
  have hinteger : IsInteger 255 "0X+0fF".toList := integer?_eq_some_iff.1 (by decide)
  have hgreat (v : UInt8) : ¬IsInteger v.toNat "0x1FF".toList := by
    intro h
    have hvalue : integer? "0x1FF".toList = some 511 := by decide
    have heq := hvalue.symm.trans (integer?_eq_some_iff.2 h)
    exact absurd (Option.some.inj heq) (Nat.ne_of_gt (Nat.lt_trans v.toNat_lt (by decide)))
  have hpin : IsPin 7 "\"GP+007\"".toList := pin?_eq_ok_iff_isPin.1 (by decide)
  have hwords (v : UInt8) : ¬IsPin v.toNat "gpioGP7".toList := by
    intro h
    have hbad : pin? "gpioGP7".toList = .error .badPin := by decide
    rw [pin?_eq_ok_iff_isPin.2 h] at hbad
    cases hbad
  obtain ⟨hreads, -⟩ := reads_numbers_exactly "0X+0fF".toList
  obtain ⟨hrefuses, -⟩ := reads_numbers_exactly "0x1FF".toList
  obtain ⟨-, hpins, -⟩ := reads_numbers_exactly "\"GP+007\"".toList
  obtain ⟨-, -, hbadPins, -⟩ := reads_numbers_exactly "gpioGP7".toList
  exact ⟨hbyte, ((hreads byte hbyte).1 255).2 hinteger,
    (hrefuses byte hbyte).2.1 fun ⟨v, hv⟩ => hgreat v hv, (hpins 7).2 hpin,
    hbadPins fun ⟨v, hv⟩ => hwords v hv⟩

end ValueKind

end StatusPanel
