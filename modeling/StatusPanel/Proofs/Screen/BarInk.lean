import StatusPanel.Proofs.Screen.Ink
import StatusPanel.Screen.Layout

/-!
# The ink of a bar

A bar covers exactly its area, whatever it shows: the erasure covers all of it, and the filled part
lies inside. Coordinates are compared as numbers, so the areas in question must not wrap.

## Main definitions

* `Area.Has`: the pixels of an area, as numbers
* `Area.Fits`, `Area.Proper`: an area within the range of its coordinates; one with pixels, too
* `Bar.Lit`: the pixels that a bar of a length lights

## Main results

* `Area.containsArea_iff`, `Area.overlaps_iff`: the relations of areas, by the places of their edges
* `Area.has_of_containsArea`, `Area.overlaps_of_has`: what they mean for pixels
* `Bar.ink_strokes`: a bar lights its length and clears the rest of its area
-/

namespace StatusPanel

namespace Area

/-- Whether a pixel lies in an area. -/
def Has (a : Area) (x y : Nat) : Prop :=
  a.x.toNat ≤ x ∧ x < a.x.toNat + a.width.toNat ∧ a.y.toNat ≤ y ∧ y < a.y.toNat + a.height.toNat

instance (a : Area) (x y : Nat) : Decidable (a.Has x y) := inferInstanceAs (Decidable (_ ∧ _))

/-- Whether a pixel lies in the first or last column or row of an area. -/
def OnEdge (a : Area) (x y : Nat) : Prop :=
  x = a.x.toNat ∨ x = a.x.toNat + a.width.toNat - 1 ∨
    y = a.y.toNat ∨ y = a.y.toNat + a.height.toNat - 1

instance (a : Area) (x y : Nat) : Decidable (a.OnEdge x y) := inferInstanceAs (Decidable (_ ∨ _))

/-- An area none of whose edges wraps, with or without pixels. -/
structure Fits (a : Area) : Prop where
  x_add_width : a.x.toNat + a.width.toNat < 65536
  y_add_height : a.y.toNat + a.height.toNat < 65536

/-- An area with a pixel, none of whose edges wraps. -/
structure Proper (a : Area) : Prop where
  width_pos : 0 < a.width.toNat
  height_pos : 0 < a.height.toNat
  x_add_width : a.x.toNat + a.width.toNat < 65536
  y_add_height : a.y.toNat + a.height.toNat < 65536

instance (a : Area) : Decidable a.Proper :=
  decidable_of_iff (0 < a.width.toNat ∧ 0 < a.height.toNat ∧
      a.x.toNat + a.width.toNat < 65536 ∧ a.y.toNat + a.height.toNat < 65536)
    ⟨fun ⟨h₁, h₂, h₃, h₄⟩ => ⟨h₁, h₂, h₃, h₄⟩, fun ⟨h₁, h₂, h₃, h₄⟩ => ⟨h₁, h₂, h₃, h₄⟩⟩

theorem toNat_reach {size : UInt16} (h : 0 < size.toNat) :
    (reach size).toNat = size.toNat - 1 := by
  have hne : size ≠ 0 := by
    rintro rfl
    exact absurd h (by decide)
  have hle : (1 : UInt16) ≤ size := UInt16.le_iff_toNat_le.2 h
  rw [reach, if_neg hne, UInt16.toNat_sub_of_le _ _ hle]
  rfl

theorem Proper.toNat_right {a : Area} (h : a.Proper) :
    a.right.toNat = a.x.toNat + a.width.toNat - 1 := by
  have hw := h.width_pos
  have hx := h.x_add_width
  rw [right, UInt16.toNat_add, toNat_reach hw]
  omega

theorem Proper.toNat_bottom {a : Area} (h : a.Proper) :
    a.bottom.toNat = a.y.toNat + a.height.toNat - 1 := by
  have hh := h.height_pos
  have hy := h.y_add_height
  rw [bottom, UInt16.toNat_add, toNat_reach hh]
  omega

theorem Proper.fits {a : Area} (h : a.Proper) : a.Fits := ⟨h.x_add_width, h.y_add_height⟩

theorem Fits.toNat_x_add {a : Area} (h : a.Fits) :
    (a.x + a.width).toNat = a.x.toNat + a.width.toNat := by
  rw [UInt16.toNat_add, Nat.mod_eq_of_lt h.x_add_width]

theorem Fits.toNat_y_add {a : Area} (h : a.Fits) :
    (a.y + a.height).toNat = a.y.toNat + a.height.toNat := by
  rw [UInt16.toNat_add, Nat.mod_eq_of_lt h.y_add_height]

/-- A rectangle over an area covers all of it, or its edge. -/
theorem ink_rect {a : Area} (h : a.Proper) (color : Color) (filled : Bool) (x y : Nat) :
    (Stroke.rect a.x a.y a.right a.bottom color filled : Stroke Bitmap).ink x y =
      if a.Has x y ∧ (filled = true ∨ a.OnEdge x y) then some color.isLit else none := by
  have hw := h.width_pos
  have hh := h.height_pos
  simp only [Stroke.ink, h.toNat_right, h.toNat_bottom, Has, OnEdge]
  congr 1
  cases filled
  all_goals
    simp only [eq_iff_iff, true_or, and_true, Bool.false_eq_true, false_or]
    omega

section

variable {a b : Area} (ha : a.Fits) (hb : b.Fits)

include ha hb

theorem containsArea_iff :
    a.containsArea b = true ↔
      (a.x.toNat ≤ b.x.toNat ∧
          b.x.toNat + b.width.toNat ≤ a.x.toNat + a.width.toNat) ∧
        a.y.toNat ≤ b.y.toNat ∧
          b.y.toNat + b.height.toNat ≤ a.y.toNat + a.height.toNat := by
  simp only [containsArea, Bool.and_eq_true, decide_eq_true_eq, UInt16.le_iff_toNat_le,
    ha.toNat_x_add, ha.toNat_y_add, hb.toNat_x_add, hb.toNat_y_add]
  omega

theorem overlaps_iff :
    a.overlaps b = true ↔
      (a.x.toNat < b.x.toNat + b.width.toNat ∧ b.x.toNat < a.x.toNat + a.width.toNat) ∧
        a.y.toNat < b.y.toNat + b.height.toNat ∧ b.y.toNat < a.y.toNat + a.height.toNat := by
  simp only [overlaps, Bool.and_eq_true, decide_eq_true_eq, UInt16.lt_iff_toNat_lt,
    ha.toNat_x_add, ha.toNat_y_add, hb.toNat_x_add, hb.toNat_y_add, and_assoc]

theorem has_of_containsArea (h : a.containsArea b = true) {x y : Nat} (hxy : b.Has x y) :
    a.Has x y := by
  rw [containsArea_iff ha hb] at h
  unfold Has at *
  omega

theorem overlaps_of_has {x y : Nat} (hx : a.Has x y) (hy : b.Has x y) :
    a.overlaps b = true := by
  rw [overlaps_iff ha hb]
  unfold Has at *
  omega

end

end Area

namespace Bar

/-- Whether a bar of a length lights a pixel of its area. -/
def Lit (bar : Bar) (length x y : Nat) : Prop :=
  match bar.growth with
  | .fromLeft => x < bar.area.x.toNat + length
  | .fromBottom => bar.area.y.toNat + bar.area.height.toNat ≤ y + length

instance (bar : Bar) (length x y : Nat) : Decidable (bar.Lit length x y) := by
  unfold Lit
  cases bar.growth <;> infer_instance

theorem toNat_length (bar : Bar) (value scale : Nat) :
    (bar.length value scale).toNat = barLength value scale bar.pixels.toNat := by
  have hle := barLength_le value scale bar.pixels.toNat
  have hlt := bar.pixels.toNat_lt
  exact UInt16.toNat_ofNat_of_lt' (Nat.lt_of_le_of_lt hle hlt)

theorem ink_erase {bar : Bar} (h : bar.area.Proper) (x y : Nat) :
    bar.erase.ink x y = if bar.area.Has x y then some false else none := by
  rw [erase, Area.ink_rect h, Color.isLit_black]
  simp only [true_or, and_true]

theorem toNat_fill_right {a : Area} (h : a.Proper) {length : UInt16} (hpos : 0 < length.toNat)
    (hle : length.toNat ≤ a.width.toNat) :
    (a.x + length - 1).toNat = a.x.toNat + length.toNat - 1 := by
  have hx := h.x_add_width
  have hone : (1 : UInt16).toNat = 1 := rfl
  rw [UInt16.toNat_sub, UInt16.toNat_add, hone]
  omega

theorem toNat_fill_top {a : Area} (h : a.Proper) {length : UInt16}
    (hle : length.toNat ≤ a.height.toNat) :
    (a.bottom + 1 - length).toNat = a.y.toNat + a.height.toNat - length.toNat := by
  have hh := h.height_pos
  have hy := h.y_add_height
  have hone : (1 : UInt16).toNat = 1 := rfl
  rw [UInt16.toNat_sub, UInt16.toNat_add, h.toNat_bottom, hone]
  omega

theorem ink_fill {bar : Bar} (h : bar.area.Proper) {length : UInt16} (hpos : 0 < length.toNat)
    (hle : length.toNat ≤ bar.pixels.toNat) (x y : Nat) :
    (bar.fill length).ink x y =
      if bar.area.Has x y ∧ bar.Lit length.toNat x y then some true else none := by
  obtain ⟨growth, area⟩ := bar
  dsimp only at h
  have hw := h.width_pos
  have hh := h.height_pos
  cases growth with
  | fromLeft =>
    simp only [fill, Stroke.ink, toNat_fill_right h hpos hle, h.toNat_bottom, Color.isLit_white,
      true_or, and_true, Area.Has, Lit]
    congr 1
    simp only [pixels] at hle
    simp only [eq_iff_iff]
    omega
  | fromBottom =>
    simp only [fill, Stroke.ink, toNat_fill_top h hle, h.toNat_right, h.toNat_bottom,
      Color.isLit_white, true_or, and_true, Area.Has, Lit]
    congr 1
    simp only [pixels] at hle
    simp only [eq_iff_iff]
    omega

theorem toNat_length_le (bar : Bar) (value scale : Nat) :
    (bar.length value scale).toNat ≤ bar.pixels.toNat := by
  rw [toNat_length]
  exact barLength_le ..

theorem toNat_length_pos {bar : Bar} {value scale : Nat} (h : bar.length value scale ≠ 0) :
    0 < (bar.length value scale).toNat :=
  Nat.pos_of_ne_zero fun h0 => h (UInt16.toNat_inj.1 h0)

/-- A bar lights its length and clears the rest of its area; it covers nothing else. -/
theorem ink_strokes {bar : Bar} (h : bar.area.Proper) (value scale x y : Nat) :
    Drawing.ink (bar.strokes value scale) x y =
      if bar.area.Has x y then
        some (decide (bar.Lit (barLength value scale bar.pixels.toNat) x y))
      else none := by
  rw [← toNat_length]
  unfold strokes
  by_cases hz : bar.length value scale = 0
  · -- a bar of no length is only erased, and lights nothing
    rw [if_pos hz, Drawing.ink_cons, Drawing.ink_nil, Option.none_or, ink_erase h, hz]
    by_cases hxy : bar.area.Has x y
    · have hlit : ¬bar.Lit (0 : UInt16).toNat x y := by
        unfold Lit Area.Has at *
        have h0 : (0 : UInt16).toNat = 0 := rfl
        split <;> omega
      rw [if_pos hxy, if_pos hxy, decide_eq_false hlit]
    · rw [if_neg hxy, if_neg hxy]
  · -- the filled part is drawn over the erasure
    have hpos := toNat_length_pos hz
    rw [if_neg hz, Drawing.ink_cons, Drawing.ink_cons, Drawing.ink_nil, Option.none_or,
      ink_erase h, ink_fill h hpos (toNat_length_le ..)]
    by_cases hxy : bar.area.Has x y
    · by_cases hlit : bar.Lit (bar.length value scale).toNat x y
      · rw [if_pos ⟨hxy, hlit⟩, Option.some_or, if_pos hxy, decide_eq_true hlit]
      · rw [if_neg fun hh => hlit hh.2, if_pos hxy, if_pos hxy, decide_eq_false hlit,
          Option.none_or]
    · rw [if_neg fun hh => hxy hh.1, if_neg hxy, if_neg hxy, Option.none_or]

section

variable {bar : Bar} (h : bar.area.Proper)
  (hx : bar.area.x.toNat + bar.area.width.toNat ≤ panelWidth)
  (hy : bar.area.y.toNat + bar.area.height.toNat ≤ panelHeight)

include h hx hy

theorem fits_erase : (bar.erase : Stroke Bitmap).fits = true := by
  have hw := h.width_pos
  have hh := h.height_pos
  simp only [erase, Stroke.fits, Bool.and_eq_true, decide_eq_true_eq, UInt16.le_iff_toNat_le,
    h.toNat_right, h.toNat_bottom]
  omega

theorem fits_fill {length : UInt16} (hpos : 0 < length.toNat)
    (hle : length.toNat ≤ bar.pixels.toNat) : (bar.fill length : Stroke Bitmap).fits = true := by
  have hw := h.width_pos
  have hh := h.height_pos
  obtain ⟨growth, area⟩ := bar
  dsimp only at h hx hy hw hh
  cases growth with
  | fromLeft =>
    simp only [pixels] at hle
    simp only [fill, Stroke.fits, Bool.and_eq_true, decide_eq_true_eq, UInt16.le_iff_toNat_le,
      toNat_fill_right h hpos hle, h.toNat_bottom]
    omega
  | fromBottom =>
    simp only [pixels] at hle
    simp only [fill, Stroke.fits, Bool.and_eq_true, decide_eq_true_eq, UInt16.le_iff_toNat_le,
      toNat_fill_top h hle, h.toNat_right, h.toNat_bottom]
    omega

/-- The strokes of a bar that lies on the panel lie on it. -/
theorem fits_of_mem_strokes {value scale : Nat} {s : Stroke Bitmap}
    (hs : s ∈ bar.strokes value scale) : s.fits = true := by
  unfold strokes at hs
  by_cases hz : bar.length value scale = 0
  · -- a bar of no length is only erased
    rw [if_pos hz, List.mem_singleton] at hs
    exact hs ▸ fits_erase h hx hy
  · have hpos := toNat_length_pos hz
    rw [if_neg hz, List.mem_cons, List.mem_singleton] at hs
    rcases hs with rfl | rfl
    · exact fits_erase h hx hy
    · exact fits_fill h hx hy hpos (bar.toNat_length_le value scale)

end

end Bar

end StatusPanel
