import StatusPanel.Proofs.Screen.BarInk

/-!
# The pixels that areas share

The relations of areas are decided by comparing edges, and speak of pixels. For areas that do not
wrap the two agree as long as there are pixels to speak of: areas that share a pixel overlap, and an
area within another has all of its pixels there. The converses need pixels. An area without any may
still lie between the edges of another one, and then they overlap and share nothing.

## Main definitions

* `Area.HasPixels`: an area that is not empty
* `Area.SharesPixel`, `Area.Covers`: two areas with a pixel in common, and one that has all of the
  other's

## Main results

* `Area.exists_common_iff`: when two stretches of an axis have a place in common
* `Area.exists_has_and_has_iff`, `Area.containsArea_of_has`: the relations of areas, by their pixels
* `Area.overlaps_iff_sharesPixel_iff`: when overlapping is sharing a pixel
-/

namespace StatusPanel.Area

/-- An area that is not empty. -/
def HasPixels (a : Area) : Prop := 0 < a.width.toNat ∧ 0 < a.height.toNat

instance (a : Area) : Decidable a.HasPixels := inferInstanceAs (Decidable (_ ∧ _))

/-- Whether some pixel lies in both areas. -/
def SharesPixel (a b : Area) : Prop :=
  ∃ x y : UInt16, a.contains x y = true ∧ b.contains x y = true

/-- Whether every pixel of the other area lies in the area. -/
def Covers (a b : Area) : Prop :=
  ∀ x y : UInt16, b.contains x y = true → a.contains x y = true

variable {a b : Area}

/-! ## Pixels as words and as numbers -/

theorem Fits.contains_iff_has (h : a.Fits) {x y : UInt16} :
    a.contains x y = true ↔ a.Has x.toNat y.toNat := by
  simp only [contains, Bool.and_eq_true, decide_eq_true_eq, UInt16.le_iff_toNat_le,
    UInt16.lt_iff_toNat_lt, h.toNat_x_add, h.toNat_y_add, Has, and_assoc]

/-- The pixels of an area have words as coordinates. -/
theorem Fits.exists_toNat_eq (h : a.Fits) {x y : Nat} (hxy : a.Has x y) :
    ∃ u v : UInt16, u.toNat = x ∧ v.toNat = y := by
  have hx : x < 65536 := Nat.lt_trans hxy.2.1 h.x_add_width
  have hy : y < 65536 := Nat.lt_trans hxy.2.2.2 h.y_add_height
  exact ⟨.ofNat x, .ofNat y, UInt16.toNat_ofNat_of_lt' hx, UInt16.toNat_ofNat_of_lt' hy⟩

theorem sharesPixel_iff_exists_has (ha : a.Fits) (hb : b.Fits) :
    a.SharesPixel b ↔ ∃ x y, a.Has x y ∧ b.Has x y := by
  constructor
  · rintro ⟨x, y, hx, hy⟩
    exact ⟨x.toNat, y.toNat, ha.contains_iff_has.1 hx, hb.contains_iff_has.1 hy⟩
  · rintro ⟨x, y, hx, hy⟩
    obtain ⟨u, v, rfl, rfl⟩ := ha.exists_toNat_eq hx
    exact ⟨u, v, ha.contains_iff_has.2 hx, hb.contains_iff_has.2 hy⟩

theorem covers_iff_forall_has (ha : a.Fits) (hb : b.Fits) :
    a.Covers b ↔ ∀ x y, b.Has x y → a.Has x y := by
  constructor
  · intro h x y hxy
    obtain ⟨u, v, rfl, rfl⟩ := hb.exists_toNat_eq hxy
    exact ha.contains_iff_has.1 (h u v (hb.contains_iff_has.2 hxy))
  · intro h x y hxy
    exact ha.contains_iff_has.2 (h _ _ (hb.contains_iff_has.1 hxy))

/-! ## The relations, by their pixels -/

/-- Two stretches of an axis have a place in common exactly if neither is empty and each begins
before the other ends. -/
theorem exists_common_iff {p m q n : Nat} :
    (∃ i, (p ≤ i ∧ i < p + m) ∧ q ≤ i ∧ i < q + n) ↔ (p < q + n ∧ q < p + m) ∧ 0 < m ∧ 0 < n := by
  constructor
  · rintro ⟨i, hp, hq⟩
    omega
  · rintro ⟨⟨hp, hq⟩, hm, hn⟩
    -- the later of the two beginnings
    refine ⟨max p q, ?_, ?_⟩ <;> omega

/-- Areas with pixels share one exactly if they overlap, and areas without share none. -/
theorem exists_has_and_has_iff (ha : a.Fits) (hb : b.Fits) :
    (∃ x y, a.Has x y ∧ b.Has x y) ↔ a.overlaps b = true ∧ a.HasPixels ∧ b.HasPixels := by
  constructor
  · rintro ⟨x, y, hx, hy⟩
    refine ⟨overlaps_of_has ha hb hx hy, ?_, ?_⟩
    all_goals
      unfold HasPixels Has at *
      omega
  · rintro ⟨h, hpixels, hpixels'⟩
    obtain ⟨hcolumns, hrows⟩ := (overlaps_iff ha hb).1 h
    obtain ⟨x, hx, hx'⟩ := exists_common_iff.2 ⟨hcolumns, hpixels.1, hpixels'.1⟩
    obtain ⟨y, hy, hy'⟩ := exists_common_iff.2 ⟨hrows, hpixels.2, hpixels'.2⟩
    exact ⟨x, y, ⟨hx.1, hx.2, hy⟩, hx'.1, hx'.2, hy'⟩

theorem overlaps_comm (a b : Area) : a.overlaps b = b.overlaps a := by
  unfold overlaps
  ac_rfl

/-- An area with pixels lies within another one as soon as its pixels do. -/
theorem containsArea_of_has (ha : a.Fits) (hb : b.Fits) (hpixels : b.HasPixels)
    (h : ∀ x y, b.Has x y → a.Has x y) : a.containsArea b = true := by
  obtain ⟨hwidth, hheight⟩ := hpixels
  -- the pixels in two opposite corners
  have hfirst := h b.x.toNat b.y.toNat (by unfold Has; omega)
  have hlast := h (b.x.toNat + b.width.toNat - 1) (b.y.toNat + b.height.toNat - 1)
    (by unfold Has; omega)
  rw [containsArea_iff ha hb]
  unfold Has at hfirst hlast
  omega

/-! ## What the relations say of pixels -/

/-- **What the relations of areas say of pixels**, for areas that do not wrap. Overlapping is
symmetric. It is the same as sharing a pixel exactly if both areas have pixels or they do not
overlap. An area within another one has all of its pixels there, and an area with pixels lies
within another one if it has all of its pixels there. -/
theorem overlaps_iff_sharesPixel_iff (ha : a.Fits) (hb : b.Fits) :
    ((a.overlaps b = true ↔ a.SharesPixel b) ↔
        a.HasPixels ∧ b.HasPixels ∨ a.overlaps b = false) ∧
      a.overlaps b = b.overlaps a ∧
      (a.containsArea b = true → a.Covers b) ∧
      (b.HasPixels → a.Covers b → a.containsArea b = true) := by
  have hshares : a.SharesPixel b ↔ a.overlaps b = true ∧ a.HasPixels ∧ b.HasPixels :=
    (sharesPixel_iff_exists_has ha hb).trans (exists_has_and_has_iff ha hb)
  refine ⟨?_, overlaps_comm a b, fun h => ?_, fun hpixels h => ?_⟩
  · rw [hshares]
    by_cases h : a.overlaps b = true <;> simp [h]
  · exact (covers_iff_forall_has ha hb).2 fun x y => has_of_containsArea ha hb h
  · exact containsArea_of_has ha hb hpixels ((covers_iff_forall_has ha hb).1 h)

/-- An area that ends with the range of the coordinates, and one that reaches into its first row. -/
theorem overlaps_iff_sharesPixel_lastColumns :
    let a : Area := ⟨65500, 20, 35, 10⟩
    let b : Area := ⟨65533, 12, 2, 9⟩
    a.Fits ∧ b.Fits ∧ a.SharesPixel b ∧ ¬a.Covers b := by
  intro a b
  have ha : a.Fits := ⟨by decide, by decide⟩
  have hb : b.Fits := ⟨by decide, by decide⟩
  obtain ⟨hiff, -, -, hcovers⟩ := overlaps_iff_sharesPixel_iff ha hb
  refine ⟨ha, hb, (hiff.2 (Or.inl (by decide))).1 (by decide), fun h => ?_⟩
  exact absurd (hcovers (by decide) h) (by decide)

/-- An area without a column, between the edges of another one: they overlap without a pixel in
common, though areas should overlap only if they share one. -/
theorem not_sharesPixel_sliver :
    let a : Area := ⟨0, 0, 10, 10⟩
    let b : Area := ⟨5, 5, 0, 2⟩
    a.overlaps b = true ∧ ¬a.SharesPixel b ∧
      ¬∀ a b : Area, a.Fits → b.Fits → (a.overlaps b = true ↔ a.SharesPixel b) := by
  intro a b
  have ha : a.Fits := ⟨by decide, by decide⟩
  have hb : b.Fits := ⟨by decide, by decide⟩
  have hnone : ¬a.SharesPixel b := by
    rw [sharesPixel_iff_exists_has ha hb, exists_has_and_has_iff ha hb]
    decide
  exact ⟨by decide, hnone, fun hall => hnone ((hall a b ha hb).1 (by decide))⟩

end StatusPanel.Area
