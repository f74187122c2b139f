/-!
# Bits of a byte

## Main definitions

* `Byte.bit`: whether a bit is set
* `Byte.setBit`: a byte with one bit set or cleared

## Main results

* `Byte.bit_setBit`: reading a bit after writing one
* `Byte.setBit_eq_self_iff`: when writing a bit changes nothing
* `Byte.ext_bit`: the bits determine the byte
-/

namespace StatusPanel.Byte

/-- Whether a bit is set; bit 0 is the lowest. -/
def bit (b : UInt8) (i : Nat) : Bool := b.toNat.testBit i

/-- A byte with a bit set or cleared. -/
def setBit (b : UInt8) (i : Nat) (on : Bool) : UInt8 :=
  if on then b ||| 1 <<< UInt8.ofNat i else b &&& ~~~(1 <<< UInt8.ofNat i)

theorem bit_eq_getLsbD (b : UInt8) (i : Nat) : bit b i = b.toBitVec.getLsbD i := by
  simp [bit, BitVec.getLsbD]

@[simp] theorem bit_zero (i : Nat) : bit 0 i = false := by
  simp [bit]

/-- Writing a bit changes that bit only. -/
theorem bit_setBit {b : UInt8} {i j : Nat} (on : Bool) (hi : i < 8) (hj : j < 8) :
    bit (setBit b i on) j = if j = i then on else bit b j := by
  by_cases h : j = i
  · subst h
    cases on <;> simp [bit_eq_getLsbD, setBit, hj, Nat.mod_eq_of_lt hi]
  · cases on <;> simp [bit_eq_getLsbD, setBit, hj, Nat.mod_eq_of_lt hi, h] <;> omega

/-- Bytes with the same bits are the same. -/
theorem ext_bit {a b : UInt8} (h : ∀ i < 8, bit a i = bit b i) : a = b := by
  apply UInt8.toBitVec_inj.1
  apply BitVec.eq_of_getLsbD_eq
  intro i hi
  simpa [bit_eq_getLsbD] using h i hi

/-- Writing a bit changes nothing exactly when the bit was so before. -/
theorem setBit_eq_self_iff {b : UInt8} {i : Nat} (on : Bool) (hi : i < 8) :
    setBit b i on = b ↔ bit b i = on := by
  constructor
  · intro h
    rw [← h, bit_setBit on hi hi, if_pos rfl]
  · intro h
    refine ext_bit fun j hj => ?_
    rw [bit_setBit on hi hj]
    split
    · subst j
      exact h.symm
    · rfl

end StatusPanel.Byte
