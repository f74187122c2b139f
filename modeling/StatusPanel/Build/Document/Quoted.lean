import StatusPanel.Text.Numeral

/-!
# Quoted text of a document

Text stands between double quotes, with escapes for what cannot stand there, or between single
quotes, as it is. Neither holds a control character other than the tab.

## Main definitions

* `Document.isTextChar`: the characters that text holds
* `Document.quotedFrom?`: the text up to a double quote, and what is behind it
* `Document.quoted?`: quoted text of either kind

## Main results

* `Document.length_of_quoted?`: quoted text is not empty, its quotes included
-/

namespace StatusPanel.Document

open Text

/-- Whether a character is no control character, or the tab. -/
def isTextChar (c : Char) : Bool := c == '\t' || (' ' ≤ c && c != '\x7f')

/-- The characters that have an escape of one letter. -/
def shortEscapes : List (Char × Char) :=
  [('b', '\x08'), ('t', '\t'), ('n', '\n'), ('f', '\x0c'), ('r', '\r'), ('"', '"'), ('\\', '\\')]

/-- Where a reader of quoted text is. -/
inductive QuotedPlace
  /-- Between characters. -/
  | plain
  /-- Behind the backslash of an escape. -/
  | escape
  /-- In a code point, with so many hexadecimal digits to come and the value of those read. -/
  | codePoint (left value : Nat)

/-- The character of a code point. -/
def charOf? (n : Nat) : Option Char := if n.isValidChar then some (Char.ofNat n) else none

/-- The text up to a double quote with its escapes resolved, and what is behind the quote. -/
def quotedFrom? : QuotedPlace → List Char → Option (List Char × List Char)
  | _, [] => none
  | .plain, c :: rest =>
    if c = '"' then some ([], rest)
    else if c = '\\' then quotedFrom? .escape rest
    else if isTextChar c then (quotedFrom? .plain rest).map fun r => (c :: r.1, r.2)
    else none
  | .escape, c :: rest =>
    if c = 'u' then quotedFrom? (.codePoint 4 0) rest
    else if c = 'U' then quotedFrom? (.codePoint 8 0) rest
    else
      (shortEscapes.lookup c).bind fun d =>
        (quotedFrom? .plain rest).map fun r => (d :: r.1, r.2)
  | .codePoint left value, c :: rest =>
    (hexDigit? c).bind fun digit =>
      if 1 < left then quotedFrom? (.codePoint (left - 1) (value * 16 + digit)) rest
      else
        (charOf? (value * 16 + digit)).bind fun d =>
          (quotedFrom? .plain rest).map fun r => (d :: r.1, r.2)

/-- The text up to a single quote, and what is behind the quote. -/
def literalFrom? : List Char → Option (List Char × List Char)
  | [] => none
  | c :: rest =>
    if c = '\x27' then some ([], rest)
    else if isTextChar c then (literalFrom? rest).map fun r => (c :: r.1, r.2)
    else none

/-- The quoted text at the start, and what is behind it. -/
def quoted? : List Char → Option (String × List Char)
  | [] => none
  | c :: rest =>
    if c = '"' then (quotedFrom? .plain rest).map fun r => (String.ofList r.1, r.2)
    else if c = '\x27' then (literalFrom? rest).map fun r => (String.ofList r.1, r.2)
    else none

theorem length_of_quotedFrom? {place : QuotedPlace} {s text rest : List Char}
    (h : quotedFrom? place s = some (text, rest)) : rest.length < s.length := by
  induction s generalizing place text with
  | nil => simp [quotedFrom?] at h
  | cons c s ih =>
    have hlt : ∀ {p : QuotedPlace} {t : List Char}, quotedFrom? p s = some (t, rest) →
        rest.length < (c :: s).length := fun hs => Nat.lt_succ_of_lt (ih hs)
    have hpush : ∀ {p : QuotedPlace} {d : Char},
        ((quotedFrom? p s).map fun r => (d :: r.1, r.2)) = some (text, rest) →
        rest.length < (c :: s).length := by
      intro p d hs
      obtain ⟨⟨t, u⟩, hr, he⟩ := Option.map_eq_some_iff.1 hs
      obtain rfl : u = rest := congrArg Prod.snd he
      exact hlt hr
    cases place with
    | plain =>
      rw [quotedFrom?] at h
      split at h
      · obtain rfl : s = rest := congrArg Prod.snd (Option.some.inj h)
        exact Nat.lt_succ_self _
      · split at h
        · exact hlt h
        · split at h
          · exact hpush h
          · simp at h
    | escape =>
      rw [quotedFrom?] at h
      split at h
      · exact hlt h
      · split at h
        · exact hlt h
        · obtain ⟨d, -, hd⟩ := Option.bind_eq_some_iff.1 h
          exact hpush hd
    | codePoint left value =>
      rw [quotedFrom?] at h
      obtain ⟨digit, -, h⟩ := Option.bind_eq_some_iff.1 h
      split at h
      · exact hlt h
      · obtain ⟨d, -, hd⟩ := Option.bind_eq_some_iff.1 h
        exact hpush hd

theorem length_of_literalFrom? {s text rest : List Char}
    (h : literalFrom? s = some (text, rest)) : rest.length < s.length := by
  induction s generalizing text with
  | nil => simp [literalFrom?] at h
  | cons c s ih =>
    rw [literalFrom?] at h
    split at h
    · obtain rfl : s = rest := congrArg Prod.snd (Option.some.inj h)
      exact Nat.lt_succ_self _
    · split at h
      · obtain ⟨⟨t, u⟩, hr, he⟩ := Option.map_eq_some_iff.1 h
        obtain rfl : u = rest := congrArg Prod.snd he
        exact Nat.lt_succ_of_lt (ih hr)
      · simp at h

/-- What is behind quoted text is shorter. -/
theorem length_of_quoted? {s rest : List Char} {text : String}
    (h : quoted? s = some (text, rest)) : rest.length < s.length := by
  cases s with
  | nil => simp [quoted?] at h
  | cons c s =>
    rw [quoted?] at h
    split at h
    · obtain ⟨⟨t, u⟩, hr, he⟩ := Option.map_eq_some_iff.1 h
      obtain rfl : u = rest := congrArg Prod.snd he
      exact Nat.lt_succ_of_lt (length_of_quotedFrom? hr)
    · split at h
      · obtain ⟨⟨t, u⟩, hr, he⟩ := Option.map_eq_some_iff.1 h
        obtain rfl : u = rest := congrArg Prod.snd he
        exact Nat.lt_succ_of_lt (length_of_literalFrom? hr)
      · simp at h

end StatusPanel.Document
