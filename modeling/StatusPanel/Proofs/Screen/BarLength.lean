import Mathlib.Data.Rat.Floor
import Mathlib.Tactic.GCongr
import Mathlib.Tactic.Positivity
import StatusPanel.Proofs.Word
import StatusPanel.Screen.Bar

/-!
# The length of a bar

A bar shows the share of its room that a value takes out of the scale. Half of the scale is added
before the division to round the share, and that half is itself a quotient: for an odd scale it
falls short by half a part. Only whole parts are counted, so the missing half never decides. The
length is the share to the nearest pixel, and whatever orders shares orders lengths.

The length is computed in words of 64 bits and cut to one of 16. With operations that fail rather
than wrap or cut the computation is the same, and none of them fails.

## Main definitions

* `barShare`: the share of the room that a value takes, as a rational number
* `barLength?`: the length of a bar, computed in words that do not wrap

## Main results

* `barLength_eq_div`, `barLength_eq_round`: the length is the share to the nearest pixel
* `barShare_le_of_value_le`, `barShare_le_of_pixels_le`, `barShare_le_of_le_scale`: how the share
  depends on its arguments
* `barLength?_eq`: no word of the computation wraps
* `barLength_rounds_share`: the length of a bar, for all words
-/

namespace StatusPanel

/-! ## Rounding -/

/-- The share of the room of a bar that a value takes out of a scale, in pixels. -/
def barShare (value scale pixels : Nat) : ℚ := (min value scale * pixels : Nat) / scale

/-- The quotient is the same as that of the doubled numbers, where the half is exact. -/
theorem barLength_eq_div (value scale pixels : Nat) :
    barLength value scale pixels =
      (2 * (min value scale * pixels) + scale) / (2 * scale) := by
  unfold barLength
  split
  case isTrue hscale => simp [hscale]
  case isFalse =>
    rw [← Nat.div_div_eq_div_mul, Nat.mul_add_div Nat.two_pos]

/-- The length of a bar is the share of the value to the nearest pixel, with halves rounded up. -/
theorem barLength_eq_round (value scale pixels : Nat) :
    (barLength value scale pixels : ℤ) = round (barShare value scale pixels) := by
  rcases Nat.eq_zero_or_pos scale with rfl | hscale
  · simp [barLength, barShare]
  · have hne : (scale : ℚ) ≠ 0 := Nat.cast_ne_zero.2 (Nat.ne_of_gt hscale)
    have hhalf : barShare value scale pixels + 1 / 2 =
        ((2 * (min value scale * pixels) + scale : Nat) : ℚ) / (2 * scale : Nat) := by
      rw [barShare, div_add_div _ _ hne two_ne_zero]
      push_cast
      ring
    rw [round_eq, hhalf, Rat.floor_natCast_div_natCast, barLength_eq_div]
    rfl

/-- No bar is longer than one with a greater share. -/
theorem barLength_le_of_barShare_le {value scale pixels value' scale' pixels' : Nat}
    (h : barShare value scale pixels ≤ barShare value' scale' pixels') :
    barLength value scale pixels ≤ barLength value' scale' pixels' := by
  rw [← Int.ofNat_le, barLength_eq_round, barLength_eq_round, round_eq, round_eq]
  gcongr

/-! ## Shares -/

theorem barShare_le_of_value_le {value value' : Nat} (h : value ≤ value') (scale pixels : Nat) :
    barShare value scale pixels ≤ barShare value' scale pixels := by
  unfold barShare
  gcongr

theorem barShare_le_of_pixels_le {pixels pixels' : Nat} (h : pixels ≤ pixels')
    (value scale : Nat) : barShare value scale pixels ≤ barShare value scale pixels' := by
  unfold barShare
  gcongr

/-- A value takes no more of a greater scale, though less of it may be cut off. -/
theorem barShare_le_of_le_scale {scale scale' : Nat} (hpos : 0 < scale) (h : scale ≤ scale')
    (value pixels : Nat) : barShare value scale' pixels ≤ barShare value scale pixels := by
  have hpos' : 0 < scale' := Nat.lt_of_lt_of_le hpos h
  have hcross : min value scale' * scale ≤ min value scale * scale' := by
    rcases Nat.le_total value scale with hle | hle
    · -- the value lies within both scales
      rw [Nat.min_eq_left (Nat.le_trans hle h), Nat.min_eq_left hle]
      exact Nat.mul_le_mul_left _ h
    · -- it fills the smaller one, and no more than fills the greater one
      rw [Nat.min_eq_right hle, Nat.mul_comm]
      exact Nat.mul_le_mul_left _ (Nat.min_le_right _ _)
  unfold barShare
  rw [div_le_div_iff₀ (by positivity) (by positivity)]
  norm_cast
  calc min value scale' * pixels * scale
      = min value scale' * scale * pixels := Nat.mul_right_comm ..
    _ ≤ min value scale * scale' * pixels := Nat.mul_le_mul_right _ hcross
    _ = min value scale * pixels * scale' := Nat.mul_right_comm ..

/-- A value that reaches the scale fills the room. -/
theorem barLength_of_scale_le {value scale : Nat} (hpos : 0 < scale) (h : scale ≤ value)
    (pixels : Nat) : barLength value scale pixels = pixels := by
  rw [barLength_eq_div, Nat.min_eq_right h, ← Nat.mul_assoc, Nat.mul_add_div (by omega),
    Nat.div_eq_of_lt (by omega), Nat.add_zero]

/-! ## Words -/

/-- The length of a bar in words, unless one of them wraps or loses a bit. -/
def barLength? (value scale : UInt32) (pixels : UInt16) : Option UInt16 := do
  if scale = 0 then
    return 0
  else
    let product ← product? (min value scale).toUInt64 pixels.toUInt64
    let total ← longSum? product (scale.toUInt64 / 2)
    narrow? (total / scale.toUInt64)

section

variable (value scale : UInt32) (pixels : UInt16)

/-- The product takes the 32 bits of the value and the 16 of the room. -/
theorem min_mul_pixels_le : min value.toNat scale.toNat * pixels.toNat ≤ 2 ^ 32 * 2 ^ 16 :=
  Nat.mul_le_mul (Nat.le_trans (Nat.min_le_left _ _) (Nat.le_of_lt value.toNat_lt))
    (Nat.le_of_lt pixels.toNat_lt)

theorem barLength_lt : barLength value.toNat scale.toNat pixels.toNat < UInt16.size :=
  Nat.lt_of_le_of_lt (barLength_le _ _ _) pixels.toNat_lt

/-- No word of the computation wraps, and the last one loses no bit. -/
theorem barLength?_eq : barLength? value scale pixels =
    some (.ofNat (barLength value.toNat scale.toNat pixels.toNat)) := by
  by_cases hscale : scale = 0
  · rw [barLength?, if_pos hscale, hscale]
    rfl
  · have hbound := min_mul_pixels_le value scale pixels
    have hlt := scale.toNat_lt
    have htwo : (2 : UInt64).toNat = 2 := rfl
    have hzero : scale.toNat ≠ 0 := fun h => hscale (UInt32.toNat_inj.1 h)
    have hproduct : product? (min value scale).toUInt64 pixels.toUInt64 =
        some (.ofNat (min value.toNat scale.toNat * pixels.toNat)) := by
      rw [product?_eq_some_iff, UInt64.toNat_ofNat_of_lt' (by rw [UInt64.size]; omega),
        UInt32.toNat_toUInt64, UInt16.toNat_toUInt64, Word.toNat_min]
    have htotal : longSum? (.ofNat (min value.toNat scale.toNat * pixels.toNat))
        (scale.toUInt64 / 2) =
          some (.ofNat (min value.toNat scale.toNat * pixels.toNat + scale.toNat / 2)) := by
      rw [longSum?_eq_some_iff, UInt64.toNat_ofNat_of_lt' (by rw [UInt64.size]; omega),
        UInt64.toNat_ofNat_of_lt' (by rw [UInt64.size]; omega), UInt64.toNat_div,
        UInt32.toNat_toUInt64, htwo]
    have hnarrow : narrow? (.ofNat (min value.toNat scale.toNat * pixels.toNat + scale.toNat / 2) /
        scale.toUInt64) = some (.ofNat (barLength value.toNat scale.toNat pixels.toNat)) := by
      rw [narrow?_eq_some_iff, UInt16.toNat_ofNat_of_lt' (barLength_lt value scale pixels),
        UInt64.toNat_div, UInt64.toNat_ofNat_of_lt' (by rw [UInt64.size]; omega),
        UInt32.toNat_toUInt64, barLength, if_neg hzero]
    simp only [barLength?, if_neg hscale, hproduct, htotal, Option.bind_eq_bind, Option.bind_some,
      hnarrow]

end

/-! ## The length of a bar -/

/-- **The length of a bar is the share of the value, rounded.** For every value, every scale other
than zero and every room:

* the length is the share to the nearest pixel, with halves rounded up;
* it is computed without a word that wraps, and as a word it loses nothing;
* it is no more than the room, which a value that reaches the scale fills;
* it does not decrease with the value or the room, and does not increase with the scale. -/
theorem barLength_rounds_share (value scale : UInt32) (pixels : UInt16) (hscale : 0 < scale) :
    let v := value.toNat
    let s := scale.toNat
    let p := pixels.toNat
    ((barLength v s p : ℤ) = round ((min v s * p : ℚ) / s) ∧
        barLength v s p = (2 * (min v s * p) + s) / (2 * s)) ∧
      (∃ length, barLength? value scale pixels = some length ∧ length.toNat = barLength v s p) ∧
      (barLength v s p ≤ p ∧ (s ≤ v → barLength v s p = p)) ∧
      (∀ value' : UInt32, v ≤ value'.toNat → barLength v s p ≤ barLength value'.toNat s p) ∧
      (∀ pixels' : UInt16, p ≤ pixels'.toNat → barLength v s p ≤ barLength v s pixels'.toNat) ∧
      ∀ scale' : UInt32, s ≤ scale'.toNat → barLength v scale'.toNat p ≤ barLength v s p := by
  intro v s p
  have hpos : 0 < s := UInt32.lt_iff_toNat_lt.1 hscale
  refine ⟨⟨?_, barLength_eq_div v s p⟩, ⟨_, barLength?_eq value scale pixels, ?_⟩,
    ⟨barLength_le v s p, fun h => barLength_of_scale_le hpos h p⟩, fun value' h => ?_,
    fun pixels' h => ?_, fun scale' h => ?_⟩
  · have hshare : barShare v s p = (min v s * p : ℚ) / s := by
      rw [barShare, Nat.cast_mul, Nat.cast_min]
    rw [barLength_eq_round, hshare]
  · exact UInt16.toNat_ofNat_of_lt' (barLength_lt value scale pixels)
  · exact barLength_le_of_barShare_le (barShare_le_of_value_le h s p)
  · exact barLength_le_of_barShare_le (barShare_le_of_pixels_le h v s)
  · exact barLength_le_of_barShare_le (barShare_le_of_le_scale hpos h v p)

/-- Half of the greatest even scale in the greatest room: the share lies halfway between two pixels,
and the length is the greater one. -/
theorem barLength_rounds_share_halfway :
    let value : UInt32 := 2147483647
    let scale : UInt32 := 4294967294
    let pixels : UInt16 := 65535
    0 < scale ∧ barShare value.toNat scale.toNat pixels.toNat = 32767 + 1 / 2 ∧
      barLength? value scale pixels = some 32768 := by
  intro value scale pixels
  have hpos : 0 < scale := by decide
  obtain ⟨⟨-, hdiv⟩, ⟨length, hlength, hword⟩, -⟩ := barLength_rounds_share value scale pixels hpos
  have hvalue : barLength value.toNat scale.toNat pixels.toNat = 32768 := hdiv.trans (by decide)
  refine ⟨hpos, ?_, ?_⟩
  · have hmin : min value.toNat scale.toNat * pixels.toNat = 2147483647 * 65535 := by decide
    have hscale : scale.toNat = 4294967294 := by decide
    rw [barShare, hmin, hscale]
    norm_num
  · rw [hlength, UInt16.toNat_inj.1 (hword.trans hvalue : length.toNat = (32768 : UInt16).toNat)]

end StatusPanel
