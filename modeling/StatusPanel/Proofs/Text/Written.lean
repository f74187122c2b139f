import Mathlib.Data.List.Basic
import Mathlib.Data.List.TakeWhile
import StatusPanel.Text.Blank
import StatusPanel.Text.Cut
import StatusPanel.Text.Lines
import StatusPanel.Text.Numeral

/-!
# Text that was written

What the functions that take a text apart make of a text that was put together: lines that were
written one after another, a part before a character and one behind it, text without blanks at its
ends, and the digits of a number.

## Main definitions

* `unlines`: lines one after another, each with its end
* `Trimmed`: no blank at either end

## Main results

* `lines_append_newline`, `lines_of_newline`: the first line of a text, and a text of one line
* `lines_unlines`, `lines_intercalate`: the lines that were written
* `lines_append`: the lines of a text that ends where a line starts, and of what follows
* `before_append`, `behind_append`: the parts around a character
* `trim_of_trimmed`: text without blanks at its ends
* `trim_cons`: a text that starts with no blank starts so without the blanks at its ends
* `exists_blanks_trim`: what trimming takes away
* `trim_blanks_append`, `trim_append_blanks`, `trim_append`, `trim_append_cons`: blanks and text
  around a text
* `digitsFrom?_toDigits`, `numeral?_toDigits`, `of_mem_numeral?`: numerals
-/

namespace StatusPanel.Text

/-! ## Lines -/

/-- Lines one after another, each with a line feed behind it. -/
def unlines (texts : List (List Char)) : List Char := texts.flatMap (· ++ ['\n'])

theorem pieces_append_newline {text : List Char} (h : '\n' ∉ text) (rest : List Char) :
    pieces (text ++ '\n' :: rest) = (text ++ ['\n']) :: pieces rest := by
  induction text with
  | nil => rfl
  | cons c text ih =>
    obtain ⟨hc, htext⟩ := not_or.1 (mt List.mem_cons.2 h)
    rw [List.cons_append, pieces, if_neg (Ne.symm hc), ih htext]
    rfl

theorem lines_append_newline {text : List Char} (h : '\n' ∉ text) (s : List Char) :
    lines (text ++ '\n' :: s) = withoutReturn text :: lines s := by
  rw [lines, pieces_append_newline h, List.map_cons, withoutEnd, List.getLast?_concat, if_pos rfl,
    List.dropLast_concat]
  rfl

theorem lines_of_newline {text : List Char} (hne : text ≠ []) (h : '\n' ∉ text) :
    lines text = [text] := by
  -- without a line feed a text is one piece
  have hpieces : pieces text = [text] := by
    induction text with
    | nil => exact absurd rfl hne
    | cons c text ih =>
      obtain ⟨hc, htext⟩ := not_or.1 (mt List.mem_cons.2 h)
      rw [pieces, if_neg (Ne.symm hc)]
      cases text with
      | nil => rfl
      | cons a text =>
        rw [ih (List.cons_ne_nil _ _) htext]
        rfl
  have hlast : text.getLast? ≠ some '\n' := fun hlast => h (List.mem_of_getLast? hlast)
  rw [lines, hpieces, List.map_singleton, withoutEnd, if_neg hlast]

/-- A piece is a text without a line feed, and perhaps one behind it. -/
theorem exists_of_mem_pieces {s piece : List Char} (h : piece ∈ pieces s) :
    ∃ text, '\n' ∉ text ∧ (piece = text ∨ piece = text ++ ['\n']) := by
  induction s generalizing piece with
  | nil => cases h
  | cons c s ih =>
    rw [pieces] at h
    by_cases hc : c = '\n'
    · rw [if_pos hc, List.mem_cons] at h
      rcases h with rfl | h
      · exact ⟨[], List.not_mem_nil, Or.inr (hc ▸ rfl)⟩
      · exact ih h
    · rw [if_neg hc] at h
      cases hpieces : pieces s with
      | nil =>
        rw [hpieces, consFirst, List.mem_singleton] at h
        exact ⟨[c], by simpa using Ne.symm hc, Or.inl h⟩
      | cons first rest =>
        rw [hpieces] at h ih
        rcases List.mem_cons.1 h with rfl | h
        · -- the character goes in front of the first piece of the rest
          obtain ⟨text, htext, heq⟩ := ih List.mem_cons_self
          refine ⟨c :: text, by simp [Ne.symm hc, htext], ?_⟩
          rcases heq with rfl | rfl
          · exact Or.inl rfl
          · exact Or.inr rfl
        · exact ih (List.mem_cons_of_mem _ h)

/-- A line has no line feed in it. -/
theorem newline_not_mem_of_mem_lines {s line : List Char} (h : line ∈ lines s) : '\n' ∉ line := by
  obtain ⟨piece, hpiece, rfl⟩ := List.mem_map.1 h
  obtain ⟨text, htext, rfl | rfl⟩ := exists_of_mem_pieces hpiece
  · have hlast : piece.getLast? ≠ some '\n' := fun hlast => htext (List.mem_of_getLast? hlast)
    rwa [withoutEnd, if_neg hlast]
  · rw [withoutEnd, List.getLast?_concat, if_pos rfl, List.dropLast_concat, withoutReturn]
    split
    · exact fun hmem => htext (List.dropLast_subset _ hmem)
    · exact htext

/-- Lines that were written are read, if none has a line feed in it or ends in a return. -/
theorem lines_unlines {texts : List (List Char)}
    (h : ∀ text ∈ texts, '\n' ∉ text ∧ text.getLast? ≠ some '\r') :
    lines (unlines texts) = texts := by
  induction texts with
  | nil => rfl
  | cons text rest ih =>
    obtain ⟨⟨hfeed, hreturn⟩, hrest⟩ := List.forall_mem_cons.1 h
    have hunlines : unlines (text :: rest) = text ++ '\n' :: unlines rest := by
      rw [unlines, List.flatMap_cons, List.append_assoc]
      rfl
    rw [hunlines, lines_append_newline hfeed, withoutReturn, if_neg hreturn, ih hrest]

/-- Lines with line feeds between them are read, if moreover none of them is empty. -/
theorem lines_intercalate {texts : List (List Char)}
    (h : ∀ text ∈ texts, '\n' ∉ text ∧ text ≠ [] ∧ text.getLast? ≠ some '\r') :
    lines (['\n'].intercalate texts) = texts := by
  induction texts with
  | nil => rfl
  | cons text rest ih =>
    obtain ⟨⟨hfeed, hne, hreturn⟩, hrest⟩ := List.forall_mem_cons.1 h
    cases rest with
    | nil => rw [List.intercalate_singleton, lines_of_newline hne hfeed]
    | cons next rest =>
      rw [List.intercalate_cons_cons, List.append_assoc, List.singleton_append,
        lines_append_newline hfeed, withoutReturn, if_neg hreturn, ih hrest]

theorem pieces_append {s : List Char} (h : ∀ c ∈ s.getLast?, c = '\n') (t : List Char) :
    pieces (s ++ t) = pieces s ++ pieces t := by
  induction s with
  | nil => rfl
  | cons c s ih =>
    have hrest : ∀ a ∈ s.getLast?, a = '\n' := by
      intro a ha
      exact h a (List.mem_getLast?_cons ha)
    by_cases hc : c = '\n'
    · simp only [List.cons_append, pieces, hc, if_true, ih hrest]
    · -- the line goes on behind the character, so there is a piece to put it in front of
      have hne : pieces s ≠ [] := by
        intro hnil
        have hflatten := flatten_pieces s
        rw [hnil] at hflatten
        subst hflatten
        exact hc (h c rfl)
      obtain ⟨piece, rest, hpieces⟩ := List.exists_cons_of_ne_nil hne
      rw [List.cons_append, pieces, pieces, if_neg hc, if_neg hc, ih hrest, hpieces]
      rfl

/-- A text that ends where a line starts has its lines, and what follows has its own. -/
theorem lines_append {s : List Char} (h : ∀ c ∈ s.getLast?, c = '\n') (t : List Char) :
    lines (s ++ t) = lines s ++ lines t := by
  rw [lines, pieces_append h, List.map_append]
  rfl

/-! ## Parts -/

theorem before_append {c : Char} {s : List Char} (h : c ∉ s) (t : List Char) :
    before c (s ++ c :: t) = s := by
  induction s with
  | nil => simp [before]
  | cons a s ih =>
    obtain ⟨ha, hs⟩ := not_or.1 (mt List.mem_cons.2 h)
    have hkeep : decide (a ≠ c) = true := decide_eq_true (Ne.symm ha)
    rw [List.cons_append, before, List.takeWhile_cons, if_pos hkeep]
    exact congrArg (a :: ·) (ih hs)

theorem behind_append {c : Char} {s : List Char} (h : c ∉ s) (t : List Char) :
    behind c (s ++ c :: t) = t := by
  induction s with
  | nil => simp [behind]
  | cons a s ih =>
    obtain ⟨ha, hs⟩ := not_or.1 (mt List.mem_cons.2 h)
    have hdrop : decide (a ≠ c) = true := decide_eq_true (Ne.symm ha)
    rw [List.cons_append, behind, List.dropWhile_cons, if_pos hdrop]
    exact ih hs

/-- The part before a character ends where it stands first. -/
theorem before_append_of_mem {c : Char} {s : List Char} (h : c ∈ s) (t : List Char) :
    before c (s ++ t) = before c s := by
  induction s with
  | nil => cases h
  | cons a s ih =>
    rw [List.cons_append, before, before, List.takeWhile_cons, List.takeWhile_cons]
    by_cases ha : a = c
    · simp [ha]
    · have hkeep : decide (a ≠ c) = true := decide_eq_true ha
      rw [if_pos hkeep, if_pos hkeep]
      exact congrArg (a :: ·) (ih ((List.mem_cons.1 h).resolve_left (Ne.symm ha)))

theorem before_append_of_not_mem {c : Char} {s : List Char} (h : c ∉ s) (t : List Char) :
    before c (s ++ t) = s ++ before c t :=
  List.takeWhile_append_of_pos fun _ ha => decide_eq_true (ne_of_mem_of_not_mem ha h)

theorem behind_append_of_mem {c : Char} {s : List Char} (h : c ∈ s) (t : List Char) :
    behind c (s ++ t) = behind c s ++ t := by
  obtain ⟨u, v, rfl, hu⟩ := List.eq_append_cons_of_mem h
  rw [List.append_assoc, List.cons_append, behind_append hu, behind_append hu]

theorem before_prefix_self (c : Char) (s : List Char) : before c s <+: s := List.takeWhile_prefix _

/-! ## Blanks -/

/-- Whether a text has no blank at either end. -/
structure Trimmed (s : List Char) : Prop where
  head : ∀ c ∈ s.head?, isBlank c = false
  last : ∀ c ∈ s.getLast?, isBlank c = false

theorem dropWhile_isBlank_of_head {s : List Char} (h : ∀ c ∈ s.head?, isBlank c = false) :
    s.dropWhile isBlank = s := by
  cases s with
  | nil => rfl
  | cons a s =>
    rw [List.dropWhile_cons, if_neg]
    rw [h a rfl]
    exact Bool.false_ne_true

theorem trimEnd_of_last {s : List Char} (h : ∀ c ∈ s.getLast?, isBlank c = false) :
    trimEnd s = s := by
  rw [trimEnd, dropWhile_isBlank_of_head, List.reverse_reverse]
  rw [List.head?_reverse]
  exact h

theorem trim_of_trimmed {s : List Char} (h : Trimmed s) : trim s = s := by
  rw [trim, trimStart, dropWhile_isBlank_of_head h.head, trimEnd_of_last h.last]

theorem trimEnd_prefix_self (s : List Char) : trimEnd s <+: s := by
  have hsuffix := List.dropWhile_suffix (l := s.reverse) isBlank
  rw [← List.reverse_prefix, List.reverse_reverse] at hsuffix
  exact hsuffix

/-- A text that starts with no blank starts so without the blanks at its ends. -/
theorem trim_cons {a : Char} (ha : isBlank a = false) (s : List Char) :
    ∃ t, trim (a :: s) = a :: t ∧ t <+: s := by
  have hstart : trimStart (a :: s) = a :: s :=
    dropWhile_isBlank_of_head fun b hb => Option.some.inj hb ▸ ha
  have hne : trimEnd (a :: s) ≠ [] := by
    intro hnil
    have hall := List.dropWhile_eq_nil_iff.1 (List.reverse_eq_nil_iff.1 hnil)
    rw [hall a (List.mem_reverse.2 List.mem_cons_self)] at ha
    cases ha
  have hprefix := trimEnd_prefix_self (a :: s)
  rw [trim, hstart]
  obtain ⟨b, t, heq⟩ := List.exists_cons_of_ne_nil hne
  rw [heq, List.cons_prefix_cons] at hprefix
  obtain ⟨rfl, ht⟩ := hprefix
  exact ⟨t, heq, ht⟩

theorem exists_blanks_trimEnd (s : List Char) :
    ∃ g, (∀ c ∈ g, isBlank c = true) ∧ s = trimEnd s ++ g := by
  refine ⟨(s.reverse.takeWhile isBlank).reverse, ?_, ?_⟩
  · intro c hc
    exact List.all_eq_true.1 List.all_takeWhile c (List.mem_reverse.1 hc)
  · rw [trimEnd, ← List.reverse_append, List.takeWhile_append_dropWhile, List.reverse_reverse]

/-- Trimming takes blanks away at both ends. -/
theorem exists_blanks_trim (s : List Char) :
    ∃ g₁ g₂, (∀ c ∈ g₁, isBlank c = true) ∧ (∀ c ∈ g₂, isBlank c = true) ∧
      s = g₁ ++ (trim s ++ g₂) := by
  obtain ⟨g₂, hg₂, hend⟩ := exists_blanks_trimEnd (trimStart s)
  refine ⟨s.takeWhile isBlank, g₂, fun c hc => List.all_eq_true.1 List.all_takeWhile c hc, hg₂, ?_⟩
  rw [trim, ← hend, trimStart, List.takeWhile_append_dropWhile]

/-- A character that is no blank is kept. -/
theorem mem_trim {c : Char} {s : List Char} (hc : isBlank c = false) (h : c ∈ s) : c ∈ trim s := by
  obtain ⟨g₁, g₂, hg₁, hg₂, hs⟩ := exists_blanks_trim s
  have hnot {g : List Char} (hg : ∀ a ∈ g, isBlank a = true) : c ∉ g := fun hmem =>
    Bool.false_ne_true (hc.symm.trans (hg c hmem))
  rw [hs, List.mem_append, List.mem_append] at h
  exact (h.resolve_left (hnot hg₁)).resolve_right (hnot hg₂)

/-! ### Blanks around a text -/

theorem dropWhile_blanks {g : List Char} (hg : ∀ c ∈ g, isBlank c = true) (s : List Char) :
    (g ++ s).dropWhile isBlank = s.dropWhile isBlank := by
  induction g with
  | nil => rfl
  | cons c g ih =>
    obtain ⟨hc, hrest⟩ := List.forall_mem_cons.1 hg
    rw [List.cons_append, List.dropWhile_cons, if_pos hc]
    exact ih hrest

theorem trim_blanks_append {g : List Char} (hg : ∀ c ∈ g, isBlank c = true) (s : List Char) :
    trim (g ++ s) = trim s :=
  congrArg trimEnd (dropWhile_blanks hg s)

theorem trimEnd_append_blanks {g : List Char} (hg : ∀ c ∈ g, isBlank c = true) (s : List Char) :
    trimEnd (s ++ g) = trimEnd s := by
  rw [trimEnd, List.reverse_append, dropWhile_blanks fun c hc => hg c (List.mem_reverse.1 hc)]
  rfl

theorem trim_append_blanks {g : List Char} (hg : ∀ c ∈ g, isBlank c = true) (s : List Char) :
    trim (s ++ g) = trim s := by
  rw [trim, trim, trimStart, trimStart, List.dropWhile_append]
  split
  case isTrue hempty =>
    rw [List.isEmpty_iff.1 hempty, List.dropWhile_eq_nil_iff.2 hg]
  case isFalse => exact trimEnd_append_blanks hg _

theorem trimEnd_append_of_last {s : List Char} (hne : s ≠ [])
    (h : ∀ c ∈ s.getLast?, isBlank c = false) (t : List Char) :
    trimEnd (s ++ t) = s ++ trimEnd t := by
  obtain ⟨a, u, hu⟩ := List.exists_cons_of_ne_nil (mt List.reverse_eq_nil_iff.1 hne)
  have ha : isBlank a = false := h a (by rw [← List.head?_reverse, hu]; rfl)
  have hs : u.reverse ++ [a] = s := by
    rw [← List.reverse_cons, ← hu, List.reverse_reverse]
  rw [trimEnd, trimEnd, List.reverse_append, List.dropWhile_append]
  split
  case isTrue hempty =>
    rw [List.isEmpty_iff.1 hempty, hu, List.dropWhile_cons, if_neg (Bool.eq_false_iff.1 ha)]
    simp [hs]
  case isFalse => simp

/-- Behind a text without blanks at its ends, only the end of what follows is trimmed. -/
theorem trim_append {s : List Char} (hne : s ≠ []) (h : Trimmed s) (t : List Char) :
    trim (s ++ t) = s ++ trimEnd t := by
  have hstart : trimStart (s ++ t) = s ++ t := by
    obtain ⟨a, u, rfl⟩ := List.exists_cons_of_ne_nil hne
    exact dropWhile_isBlank_of_head fun c hc => h.head c hc
  rw [trim, hstart, trimEnd_append_of_last hne h.last]

theorem trimStart_eq_nil_of_trim {s : List Char} (h : trim s = []) : trimStart s = [] := by
  obtain ⟨g, hg, hs⟩ := exists_blanks_trimEnd (trimStart s)
  have hblank : trimStart s = g := hs.trans (by rw [← trim, h, List.nil_append])
  by_contra hne
  have hhead : isBlank ((trimStart s).head hne) = false := List.head_dropWhile_not isBlank hne
  rw [hg _ (hblank ▸ List.head_mem hne)] at hhead
  cases hhead

/-- What starts with no blank stays behind a text when both are trimmed, and so do the blanks
between them, except at the start. -/
theorem trim_append_cons {a : Char} (ha : isBlank a = false) (s t : List Char) :
    ∃ g rest, (∀ c ∈ g, isBlank c = true) ∧ trim (s ++ a :: t) = trim s ++ (g ++ a :: rest) ∧
      (trim s = [] → g = []) := by
  have hfirst : ∀ c ∈ (a :: t).head?, isBlank c = false := by
    intro c hc
    exact Option.some.inj hc ▸ ha
  have hstart : trimStart (s ++ a :: t) = trimStart s ++ a :: t := by
    rw [trimStart, trimStart, List.dropWhile_append]
    split
    case isTrue hempty =>
      rw [List.isEmpty_iff.1 hempty, dropWhile_isBlank_of_head hfirst]
      rfl
    case isFalse => rfl
  have hlast : ∀ c ∈ (trimStart s ++ [a]).getLast?, isBlank c = false := by
    intro c hc
    rw [List.getLast?_concat] at hc
    exact Option.some.inj hc ▸ ha
  obtain ⟨g, hg, hs⟩ := exists_blanks_trimEnd (trimStart s)
  refine ⟨g, trimEnd t, hg, ?_, ?_⟩
  · calc trim (s ++ a :: t) = trimEnd (trimStart s ++ [a] ++ t) := by
          rw [trim, hstart, List.append_cons]
      _ = trimStart s ++ [a] ++ trimEnd t := trimEnd_append_of_last (by simp) hlast t
      _ = trim s ++ g ++ [a] ++ trimEnd t := by rw [trim, ← hs]
      _ = trim s ++ (g ++ a :: trimEnd t) := by simp
  · intro hnil
    rw [trimStart_eq_nil_of_trim hnil] at hs
    exact (List.append_eq_nil_iff.1 hs.symm).2

/-- A carriage return at the end is a blank among others. -/
theorem trim_withoutReturn (s : List Char) : trim (withoutReturn s) = trim s := by
  unfold withoutReturn
  split
  case isTrue h =>
    obtain ⟨text, rfl⟩ := List.getLast?_eq_some_iff.1 h
    rw [List.dropLast_concat, trim_append_blanks (List.forall_mem_singleton.2 (by decide))]
  case isFalse => rfl

/-! ## Numerals -/

theorem hexDigit?_eq (c : Char) :
    hexDigit? c =
      if 48 ≤ c.toNat ∧ c.toNat ≤ 57 then some (c.toNat - 48)
      else if 97 ≤ c.toNat ∧ c.toNat ≤ 102 then some (c.toNat - 97 + 10)
      else if 65 ≤ c.toNat ∧ c.toNat ≤ 70 then some (c.toNat - 65 + 10)
      else none := by
  simp only [hexDigit?, Char.le_def, UInt32.le_iff_toNat_le]
  rfl

theorem toNat_toLower (c : Char) :
    c.toLower.toNat = if 65 ≤ c.toNat ∧ c.toNat ≤ 90 then c.toNat + 32 else c.toNat := by
  have hupper : (c.val ≥ 'A'.val ∧ c.val ≤ 'Z'.val) ↔ 65 ≤ c.toNat ∧ c.toNat ≤ 90 := by
    simp only [ge_iff_le, UInt32.le_iff_toNat_le]
    rfl
  unfold Char.toLower
  split
  case isTrue h =>
    have hc := hupper.1 h
    have hval : c.val.toNat = c.toNat := rfl
    have hthirty : (32 : UInt32).toNat = 32 := rfl
    rw [if_pos hc]
    show (c.val + 32).toNat = c.toNat + 32
    rw [UInt32.toNat_add]
    omega
  case isFalse h => rw [if_neg fun hc => h (hupper.2 hc)]

theorem hexDigit?_toLower (c : Char) : hexDigit? c.toLower = hexDigit? c := by
  rw [hexDigit?_eq, hexDigit?_eq, toNat_toLower]
  grind

theorem hexDigit?_digitChar {d : Nat} (h : d < 16) : hexDigit? (Nat.digitChar d) = some d := by
  have hall : ∀ d < 16, hexDigit? (Nat.digitChar d) = some d := by decide
  exact hall d h

theorem isDigit_of_digitValue? {c : Char} {d : Nat} (h : digitValue? 10 c = some d) :
    c.isDigit = true := by
  obtain ⟨hvalue, hten⟩ := Option.filter_eq_some_iff.1 h
  rw [decide_eq_true_eq] at hten
  rw [hexDigit?_eq] at hvalue
  split at hvalue
  case isTrue hrange =>
    simp only [Char.isDigit, Bool.and_eq_true, decide_eq_true_eq, ge_iff_le,
      UInt32.le_iff_toNat_le]
    exact hrange
  case isFalse =>
    -- the digits beyond those of base ten have greater values
    split at hvalue
    · obtain rfl := Option.some.inj hvalue
      omega
    · split at hvalue
      · obtain rfl := Option.some.inj hvalue
        omega
      · cases hvalue

theorem isDigit_of_digitsFrom? {s : List Char} {acc n : Nat} (h : digitsFrom? 10 acc s = some n) :
    ∀ c ∈ s, c.isDigit = true := by
  induction s generalizing acc with
  | nil => exact nofun
  | cons c s ih =>
    obtain ⟨d, hd, hs⟩ := Option.bind_eq_some_iff.1 h
    exact List.forall_mem_cons.2 ⟨isDigit_of_digitValue? hd, ih hs⟩

theorem digitsFrom?_append (base acc : Nat) (s t : List Char) :
    digitsFrom? base acc (s ++ t) =
      (digitsFrom? base acc s).bind fun value => digitsFrom? base value t := by
  induction s generalizing acc with
  | nil => rfl
  | cons c s ih =>
    rw [List.cons_append, digitsFrom?, digitsFrom?, Option.bind_assoc]
    simp only [ih]

/-- The digits of a number in a base up to sixteen write it. -/
theorem digitsFrom?_toDigits {base : Nat} (hlo : 1 < base) (hhi : base ≤ 16) (n : Nat) :
    digitsFrom? base 0 (Nat.toDigits base n) = some n := by
  have hdigit {d : Nat} (hd : d < base) : digitValue? base (Nat.digitChar d) = some d := by
    rw [digitValue?, hexDigit?_digitChar (by omega), Option.filter_some,
      if_pos (decide_eq_true hd)]
  -- Strong induction on the number: its last digit is the remainder by the base.
  induction n using Nat.strongRecOn with
  | _ n ih =>
    rw [Nat.toDigits_eq_if hlo]
    split
    case isTrue hlt => simp [digitsFrom?, hdigit hlt]
    case isFalse hle =>
      have hlast := Nat.mod_lt n (Nat.zero_lt_of_lt hlo)
      rw [digitsFrom?_append, ih (n / base) (Nat.div_lt_self (by omega) hlo)]
      simp [digitsFrom?, hdigit hlast, Nat.div_add_mod']

/-- Digits are a numeral: none of them is a plus sign. -/
theorem numeral?_of_digitsFrom? {base n : Nat} {s : List Char} (hne : s ≠ [])
    (h : digitsFrom? base 0 s = some n) : numeral? base s = some n := by
  obtain ⟨c, t, rfl⟩ := List.exists_cons_of_ne_nil hne
  have hplus : c ≠ '+' := by
    rintro rfl
    cases h
  have hdigits : withoutPlus (c :: t) = c :: t := by
    unfold withoutPlus
    split
    case h_1 heq => exact absurd (List.cons.inj heq).1 hplus
    case h_2 => rfl
  rw [numeral?, hdigits]
  exact h

/-- The decimal digits of a number are its numeral. -/
theorem numeral?_toDigits (n : Nat) : numeral? 10 (Nat.toDigits 10 n) = some n :=
  numeral?_of_digitsFrom? Nat.toDigits_ne_nil (digitsFrom?_toDigits (by decide) (by decide) n)

/-- A numeral holds digits, and a plus sign at most. -/
theorem of_mem_numeral? {s : List Char} {n : Nat} (h : numeral? 10 s = some n) :
    ∀ c ∈ s, c = '+' ∨ c.isDigit = true := by
  have hdigits : ∀ c ∈ withoutPlus s, c.isDigit = true := by
    unfold numeral? at h
    split at h
    · cases h
    · exact isDigit_of_digitsFrom? h
  intro c hc
  unfold withoutPlus at hdigits
  split at hdigits
  · rcases List.mem_cons.1 hc with rfl | hc
    · exact Or.inl rfl
    · exact Or.inr (hdigits c hc)
  · exact Or.inr (hdigits c hc)

end StatusPanel.Text
