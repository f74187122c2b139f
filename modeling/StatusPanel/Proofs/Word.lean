/-!
# Words that do not wrap

Operations on words that fail where the ones of the machine would wrap, or cut off a part of their
result. Where such an operation succeeds, its result stands for the number that it should.

## Main definitions

* `sum?`, `difference?`: sums and differences of 16-bit words
* `product?`, `longSum?`: products and sums of 64-bit words
* `narrow?`: a 64-bit word as one of 16 bits

## Main results

* `sum?_of_lt`, `difference?_of_le`: they succeed on what is within the range of the words
* `product?_eq_some_iff`, `longSum?_eq_some_iff`, `narrow?_eq_some_iff`: a word is the result
  exactly if it stands for the number that it should
-/

namespace StatusPanel

/-- A sum of words that fails rather than wrap. -/
def sum? (a b : UInt16) : Option UInt16 :=
  if a.toNat + b.toNat < UInt16.size then some (a + b) else none

/-- A difference of words that fails rather than wrap. -/
def difference? (a b : UInt16) : Option UInt16 :=
  if b ≤ a then some (a - b) else none

/-- A product of long words that fails rather than wrap. -/
def product? (a b : UInt64) : Option UInt64 :=
  if a.toNat * b.toNat < UInt64.size then some (a * b) else none

/-- A sum of long words that fails rather than wrap. -/
def longSum? (a b : UInt64) : Option UInt64 :=
  if a.toNat + b.toNat < UInt64.size then some (a + b) else none

/-- A long word cut to a short one, which fails rather than lose a bit that is set. -/
def narrow? (a : UInt64) : Option UInt16 :=
  if a.toNat < UInt16.size then some a.toUInt16 else none

theorem sum?_of_lt {a b : UInt16} (h : a.toNat + b.toNat < UInt16.size) :
    sum? a b = some (a + b) := if_pos h

theorem difference?_of_le {a b : UInt16} (h : b.toNat ≤ a.toNat) :
    difference? a b = some (a - b) := if_pos (UInt16.le_iff_toNat_le.2 h)

/-- The product of two words is the word that stands for it, if there is one. -/
theorem product?_eq_some_iff {a b c : UInt64} :
    product? a b = some c ↔ c.toNat = a.toNat * b.toNat := by
  unfold product?
  split
  case isTrue h =>
    rw [Option.some_inj, ← UInt64.toNat_inj, UInt64.toNat_mul, Nat.mod_eq_of_lt h, eq_comm]
  case isFalse h => exact iff_of_false nofun fun heq => h (heq ▸ c.toNat_lt)

/-- The sum of two words is the word that stands for it, if there is one. -/
theorem longSum?_eq_some_iff {a b c : UInt64} :
    longSum? a b = some c ↔ c.toNat = a.toNat + b.toNat := by
  unfold longSum?
  split
  case isTrue h =>
    rw [Option.some_inj, ← UInt64.toNat_inj, UInt64.toNat_add, Nat.mod_eq_of_lt h, eq_comm]
  case isFalse h => exact iff_of_false nofun fun heq => h (heq ▸ c.toNat_lt)

/-- A long word is cut to the short one that stands for the same number, if there is one. -/
theorem narrow?_eq_some_iff {a : UInt64} {c : UInt16} :
    narrow? a = some c ↔ c.toNat = a.toNat := by
  unfold narrow?
  split
  case isTrue h =>
    rw [Option.some_inj, ← UInt16.toNat_inj, UInt64.toNat_toUInt16, Nat.mod_eq_of_lt h, eq_comm]
  case isFalse h => exact iff_of_false nofun fun heq => h (heq ▸ c.toNat_lt)

theorem Word.toNat_min (a b : UInt32) : (min a b).toNat = min a.toNat b.toNat := by
  show (if a ≤ b then a else b).toNat = if a.toNat ≤ b.toNat then a.toNat else b.toNat
  simp only [UInt32.le_iff_toNat_le]
  split <;> rfl

end StatusPanel
