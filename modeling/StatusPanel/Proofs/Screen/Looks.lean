import StatusPanel.Proofs.Screen.Redraw

/-!
# Statuses that look alike

The screen does not show all of a status: a glyph stands for the default layers, two checkboxes for
the layers, and each lighting parameter is rounded to the length of its bar. Statuses that look
alike have the same picture, and statuses with the same picture and typing speed look alike.

## Main definitions

* `Lighting.LooksLike`, `Status.LooksLike`: what the screen shows of a status

## Main results

* `Bar.length_eq_of_ink_eq`: a bar tells its length
* `Painter.picture_eq_iff_looksLike`: a picture tells what its status looks like
-/

namespace StatusPanel

open PixelSurface

/-- The screen shows the same of two lightings. -/
structure Lighting.LooksLike (a b : Lighting) : Prop where
  hue : Layout.hueBar.length a.hue.toNat Drawing.lightingScale =
    Layout.hueBar.length b.hue.toNat Drawing.lightingScale
  sat : Layout.satBar.length a.sat.toNat Drawing.lightingScale =
    Layout.satBar.length b.sat.toNat Drawing.lightingScale
  val : Layout.valBar.length a.val.toNat Drawing.lightingScale =
    Layout.valBar.length b.val.toNat Drawing.lightingScale
  speed : Layout.effectSpeedBar.length a.speed.toNat Drawing.lightingScale =
    Layout.effectSpeedBar.length b.speed.toNat Drawing.lightingScale
  effect : ∀ bit ∈ Layout.effectBits, a.effectBit bit = b.effectBit bit

/-- The screen shows the same of two statuses, apart from the typing speed. -/
structure Status.LooksLike (a b : Status) : Prop where
  glyph : Asset.defaultLayer a.defaultLayers = Asset.defaultLayer b.defaultLayers
  checkboxes : ∀ layer ∈ Layer.indicated, a.layers.contains layer = b.layers.contains layer
  locks : a.locks = b.locks
  lighting : a.lighting.LooksLike b.lighting

namespace Drawing

/-! ## Drawings of statuses that look alike -/

theorem lightingBars_congr {a b : Lighting} (h : a.LooksLike b) :
    (lightingBars a : List (Stroke Bitmap)) = lightingBars b := by
  simp only [lightingBars, Bar.strokes, h.hue, h.sat, h.val, h.speed]

theorem effectIndex_congr {a b : Lighting} (h : a.LooksLike b) :
    (effectIndex a : List (Stroke Bitmap)) = effectIndex b := by
  have hsquare : ∀ bit ∈ Layout.effectBits,
      (effectSquare a bit : List (Stroke Bitmap)) = effectSquare b bit := by
    intro bit hbit
    rw [effectSquare, effectSquare, h.effect bit hbit]
  exact congrArg List.flatten (List.map_congr_left hsquare)

theorem layers_congr (g : Gallery Bitmap) {a b : LayerMask}
    (h : ∀ layer ∈ Layer.indicated, a.contains layer = b.contains layer) :
    layers g a = layers g b := by
  refine congrArg List.flatten (List.map_congr_left ?_)
  rintro ⟨layer, x⟩ hmem
  exact congrArg (fun active => g.stroke (.checkbox active) x Layout.layers.y)
    (h layer (List.of_mem_zip hmem).1)

/-- Statuses that look alike and agree on the typing speed are drawn alike. -/
theorem part_congr (g : Gallery Bitmap) (scale : UInt16) {a b : Status} (h : a.LooksLike b)
    (hwpm : a.wpm = b.wpm) (q : Part) : part g scale a q = part g scale b q := by
  cases q with
  | background => rfl
  | defaultLayer => rw [part, part, defaultLayer, defaultLayer, h.glyph]
  | layers => exact layers_congr g h.checkboxes
  | locks => rw [part, part, h.locks]
  | lightingBars => exact lightingBars_congr h.lighting
  | effectIndex => exact effectIndex_congr h.lighting
  | speed => rw [part, part, hwpm]

/-! ## What pictures tell -/

/-- Two pixels tell the glyphs of the default layers apart. -/
theorem glyph_eq_of_ink_eq {a b : LayerMask}
    (h : ∀ x y, ink (defaultLayer .builtin a) x y = ink (defaultLayer .builtin b) x y) :
    Asset.defaultLayer a = Asset.defaultLayer b := by
  have hglyph (mask : LayerMask) :
      Asset.defaultLayer mask ∈ [Asset.modeDvorak, .modeQwerty, .modeStenography] := by
    unfold Asset.defaultLayer
    split
    · decide
    · split <;> decide
  -- column 6 of the glyphs has another pattern in rows 4 and 5 for each of them
  have htell : ∀ p ∈ [Asset.modeDvorak, .modeQwerty, .modeStenography],
      ∀ q ∈ [Asset.modeDvorak, .modeQwerty, .modeStenography],
      ink (Gallery.builtin.stroke p 0 0) 6 4 = ink (Gallery.builtin.stroke q 0 0) 6 4 →
      ink (Gallery.builtin.stroke p 0 0) 6 5 = ink (Gallery.builtin.stroke q 0 0) 6 5 →
      p = q := by decide +kernel
  exact htell _ (hglyph a) _ (hglyph b) (h 6 4) (h 6 5)

/-- A pixel of each checkbox tells whether it is checked. -/
theorem contains_eq_of_ink_eq {a b : LayerMask}
    (h : ∀ x y, ink (layers .builtin a) x y = ink (layers .builtin b) x y) :
    ∀ layer ∈ Layer.indicated, a.contains layer = b.contains layer := by
  let boxes (symbols control : Bool) : List (Stroke Bitmap) :=
    Gallery.builtin.stroke (.checkbox symbols) 0 18 ++
      Gallery.builtin.stroke (.checkbox control) 24 18
  have hboxes (mask : LayerMask) :
      layers .builtin mask = boxes (mask.contains .symbols) (mask.contains .control) := by
    simp [layers, Layer.indicated, Layout.checkboxX, Layout.layers, boxes]
  have htell : ∀ s c s' c' : Bool, ink (boxes s c) 2 20 = ink (boxes s' c') 2 20 →
      ink (boxes s c) 26 20 = ink (boxes s' c') 26 20 → s = s' ∧ c = c' := by decide +kernel
  simp only [hboxes] at h
  obtain ⟨hs, hc⟩ := htell _ _ _ _ (h 2 20) (h 26 20)
  intro layer hlayer
  simp only [Layer.indicated, List.mem_cons, List.not_mem_nil, or_false] at hlayer
  rcases hlayer with rfl | rfl
  · exact hs
  · exact hc

/-- A pixel of each icon tells whether its lock is on. -/
theorem locks_eq_of_ink_eq {a b : Locks}
    (h : ∀ x y, ink (locks .builtin a) x y = ink (locks .builtin b) x y) : a = b := by
  have htell : ∀ c n s c' n' s' : Bool,
      ink (locks .builtin ⟨c, n, s⟩) 1 33 = ink (locks .builtin ⟨c', n', s'⟩) 1 33 →
      ink (locks .builtin ⟨c, n, s⟩) 16 33 = ink (locks .builtin ⟨c', n', s'⟩) 16 33 →
      ink (locks .builtin ⟨c, n, s⟩) 31 33 = ink (locks .builtin ⟨c', n', s'⟩) 31 33 →
      (⟨c, n, s⟩ : Locks) = ⟨c', n', s'⟩ := by decide +kernel
  exact htell _ _ _ _ _ _ (h 1 33) (h 16 33) (h 31 33)

/-! ## What bars and squares tell -/

/-- Where only one of several drawings covers a pixel, the others do not count. -/
theorem ink_flatMap_of_mem {α : Type} {as : List α} {f : α → List (Stroke Bitmap)} {a : α}
    (ha : a ∈ as) {x y : Nat} (h : ∀ b ∈ as, Covers (f b) x y → b = a) :
    ink (as.flatMap f) x y = ink (f a) x y := by
  -- Induction on the list; the element may stand in it several times, always drawing the same.
  induction as with
  | nil => cases ha
  | cons b as ih =>
    have hrest := fun hmem => ih hmem fun c hc => h c (List.mem_cons_of_mem _ hc)
    rw [List.flatMap_cons, ink_append]
    by_cases hb : b = a
    · subst hb
      by_cases hmem : b ∈ as
      · rw [hrest hmem, Option.or_self]
      · have hnone : ink (as.flatMap f) x y = none := by
          by_contra hcovers
          obtain ⟨c, hc, hcc⟩ := covers_flatMap.1 hcovers
          exact hmem (h c (List.mem_cons_of_mem _ hc) hcc ▸ hc)
        rw [hnone, Option.none_or]
    · have hmem : a ∈ as := (List.mem_cons.1 ha).resolve_left (Ne.symm hb)
      have hnone : ink (f b) x y = none := by
        by_contra hcovers
        exact hb (h b List.mem_cons_self hcovers)
      rw [hnone, Option.or_none, hrest hmem]

end Drawing

namespace Bar

/-- A bar lights other pixels at other lengths. -/
theorem eq_of_lit_iff {bar : Bar} (h : bar.area.Proper) {v w : Nat} (hv : v ≤ bar.pixels.toNat)
    (hw : w ≤ bar.pixels.toNat)
    (hlit : ∀ x y, bar.area.Has x y → (bar.Lit v x y ↔ bar.Lit w x y)) : v = w := by
  have hwidth := h.width_pos
  have hheight := h.height_pos
  obtain ⟨growth, area⟩ := bar
  cases growth with
  | fromLeft =>
    simp only [pixels] at hv hw
    simp only [Lit, Area.Has] at hlit
    by_contra hne
    -- the first pixel beyond the shorter bar
    have hprobe := hlit (area.x.toNat + min v w) area.y.toNat (by dsimp only at *; omega)
    omega
  | fromBottom =>
    simp only [pixels] at hv hw
    simp only [Lit, Area.Has] at hlit
    by_contra hne
    -- from the bottom that pixel is counted down
    have hprobe := hlit area.x.toNat (area.y.toNat + area.height.toNat - 1 - min v w)
      (by dsimp only at *; omega)
    dsimp only at *
    omega

theorem length_eq_of_ink_eq {bar : Bar} (h : bar.area.Proper) {v w scale : Nat}
    (hink : ∀ x y, bar.area.Has x y →
      Drawing.ink (bar.strokes v scale) x y = Drawing.ink (bar.strokes w scale) x y) :
    bar.length v scale = bar.length w scale := by
  have hlit : ∀ x y, bar.area.Has x y → (bar.Lit (barLength v scale bar.pixels.toNat) x y ↔
      bar.Lit (barLength w scale bar.pixels.toNat) x y) := by
    intro x y hxy
    have hpixel := hink x y hxy
    rw [ink_strokes h, ink_strokes h, if_pos hxy, if_pos hxy, Option.some_inj] at hpixel
    exact decide_eq_decide.1 hpixel
  rw [length, length, eq_of_lit_iff h (barLength_le ..) (barLength_le ..) hlit]

end Bar

namespace Drawing

/-- The bars of the lighting. -/
def gauges : List Bar :=
  [Layout.hueBar, Layout.satBar, Layout.valBar, Layout.effectSpeedBar]

/-- A pixel of one bar of the lighting is none of another. -/
theorem ink_gauge_eq_none {bar other : Bar} {value scale x y : Nat} (hxy : bar.area.Has x y)
    (hbar : bar ∈ gauges) (hother : other ∈ gauges) (hne : other ≠ bar) :
    ink (other.strokes value scale) x y = none := by
  have hproper : ∀ b ∈ gauges, b.area.Proper := by decide
  have happart : ∀ b ∈ gauges, ∀ c ∈ gauges, b.area.overlaps c.area = true → c = b := by decide
  rw [Bar.ink_strokes (hproper other hother), if_neg]
  intro hin
  exact hne (happart bar hbar other hother
    (Area.overlaps_of_has (hproper bar hbar).fits (hproper other hother).fits hxy hin))

theorem eq_of_overlaps_effectSquare {c d : UInt8} (hc : c ∈ Layout.effectBits)
    (hd : d ∈ Layout.effectBits)
    (h : (Layout.effectSquare c).overlaps (Layout.effectSquare d) = true) : d = c := by
  have happart : (Layout.effectBits.all fun c => Layout.effectBits.all fun d =>
      !(Layout.effectSquare c).overlaps (Layout.effectSquare d) || d == c) = true := by decide
  have hpair := List.all_eq_true.1 (List.all_eq_true.1 happart c hc) d hd
  simpa [h] using hpair

/-- A pixel inside of the outline of a square tells its bit. -/
theorem ink_effectIndex_inside {bit : UInt8} (h : bit ∈ Layout.effectBits) (lighting : Lighting) :
    ink (effectIndex lighting) ((Layout.effectSquareX bit).toNat + 1)
      (Layout.effectIndex.y.toNat + 1) = some (lighting.effectBit bit) := by
  have hproper (c : UInt8) (hc : c ∈ Layout.effectBits) : (Layout.effectSquare c).Proper := by
    have hplace : Layout.effectSquare c ∈ Part.effectIndex.places := List.mem_map_of_mem hc
    exact Part.proper_of_mem_places hplace
  have hsize : Layout.squareSize.toNat = 8 := rfl
  have hin : (Layout.effectSquare bit).Has ((Layout.effectSquareX bit).toNat + 1)
      (Layout.effectIndex.y.toNat + 1) := by
    simp only [Layout.effectSquare, Area.Has, hsize]
    omega
  have hinside : ¬(Layout.effectSquare bit).OnEdge ((Layout.effectSquareX bit).toNat + 1)
      (Layout.effectIndex.y.toNat + 1) := by
    simp only [Layout.effectSquare, Area.OnEdge, hsize]
    omega
  have honly : ink (effectIndex lighting) ((Layout.effectSquareX bit).toNat + 1)
      (Layout.effectIndex.y.toNat + 1) = ink (effectSquare lighting bit)
        ((Layout.effectSquareX bit).toNat + 1) (Layout.effectIndex.y.toNat + 1) := by
    refine ink_flatMap_of_mem h fun c hc hcovers => eq_of_overlaps_effectSquare h hc ?_
    exact Area.overlaps_of_has (hproper bit h).fits (hproper c hc).fits hin
      ((covers_effectSquare (hproper c hc)).1 hcovers)
  rw [honly, ink_effectSquare (hproper bit h), if_pos hin, decide_eq_false hinside,
    Bool.or_false]

/-- The bars and squares of two lightings tell how they look. -/
theorem looksLike_of_ink_eq {a b : Lighting}
    (hbars : ∀ x y, ink (lightingBars a) x y = ink (lightingBars b) x y)
    (hsquares : ∀ x y, ink (effectIndex a) x y = ink (effectIndex b) x y) : a.LooksLike b := by
  simp only [lightingBars, ink_append] at hbars
  constructor
  case effect =>
    intro bit hbit
    have htold := hsquares ((Layout.effectSquareX bit).toNat + 1) (Layout.effectIndex.y.toNat + 1)
    rw [ink_effectIndex_inside hbit, ink_effectIndex_inside hbit] at htold
    exact Option.some.inj htold
  -- each bar is read in its own area, where the other three draw nothing
  all_goals
    refine Bar.length_eq_of_ink_eq (by decide) fun x y hxy => ?_
    simpa (disch := decide) only [ink_gauge_eq_none hxy, Option.or_none, Option.none_or]
      using hbars x y

end Drawing

/-! ## What a picture tells -/

namespace Painter

variable {scale : UInt16} {a b : Status}

/-- Statuses that look alike and agree on the typing speed have the same picture. -/
theorem picture_eq_of_looksLike (h : a.LooksLike b) (hwpm : a.wpm = b.wpm) {x y : Nat}
    (hxy : OnPanel x y) : picture .builtin scale a x y = picture .builtin scale b x y := by
  have hshows := shows_picture Gallery.complete_builtin scale a
  have hsame := hshows.congr fun q => (Drawing.part_congr .builtin scale h hwpm q).symm
  exact hsame.pixel_eq (shows_picture Gallery.complete_builtin scale b) hxy

/-- In its places the picture of a status is that of the part. -/
theorem ink_part_eq_picture {q : Part} (hq : q ≠ .background) {area : Area}
    (ha : area ∈ q.places) {x y : Nat} (hxy : area.Has x y) :
    Drawing.ink (Drawing.part .builtin scale a q) x y = some (picture .builtin scale a x y) := by
  have hcovers : Drawing.Covers (Drawing.part .builtin scale a q) x y :=
    (Drawing.covers_part_iff Gallery.complete_builtin).2 ⟨area, ha, hxy⟩
  obtain ⟨on, hon⟩ := Option.ne_none_iff_exists'.1 hcovers
  have hshows := shows_picture Gallery.complete_builtin scale a
  have hpixel : picture .builtin scale a x y = on :=
    hshows.part hq (Part.onPanel_of_has ha hxy) hon
  rw [hon, hpixel]

theorem ink_part_eq_of_picture_eq
    (h : ∀ x y, OnPanel x y → picture .builtin scale a x y = picture .builtin scale b x y)
    {q : Part} (hq : q ≠ .background) (x y : Nat) :
    Drawing.ink (Drawing.part .builtin scale a q) x y =
      Drawing.ink (Drawing.part .builtin scale b q) x y := by
  by_cases hin : ∃ area ∈ q.places, area.Has x y
  · obtain ⟨area, ha, hxy⟩ := hin
    rw [ink_part_eq_picture hq ha hxy, ink_part_eq_picture hq ha hxy,
      h x y (Part.onPanel_of_has ha hxy)]
  · have hnone (status : Status) :
        Drawing.ink (Drawing.part .builtin scale status q) x y = none := by
      by_contra hcovers
      exact hin (Drawing.has_of_covers_part Gallery.complete_builtin.sized hcovers)
    rw [hnone, hnone]

/-- **A picture tells what its status looks like.** With the built-in pictures, statuses that agree
on the typing speed have the same picture exactly if they look alike. -/
theorem picture_eq_iff_looksLike (scale : UInt16) (hwpm : a.wpm = b.wpm) :
    (∀ x y, OnPanel x y → picture .builtin scale a x y = picture .builtin scale b x y) ↔
      a.LooksLike b := by
  refine ⟨fun h => ?_, fun h x y hxy => picture_eq_of_looksLike h hwpm hxy⟩
  have hpart {q : Part} (hq : q ≠ .background) := ink_part_eq_of_picture_eq h hq
  constructor
  case glyph => exact Drawing.glyph_eq_of_ink_eq (hpart (q := .defaultLayer) (by decide))
  case checkboxes => exact Drawing.contains_eq_of_ink_eq (hpart (q := .layers) (by decide))
  case locks => exact Drawing.locks_eq_of_ink_eq (hpart (q := .locks) (by decide))
  case lighting =>
    exact Drawing.looksLike_of_ink_eq (hpart (q := .lightingBars) (by decide))
      (hpart (q := .effectIndex) (by decide))

end Painter

end StatusPanel
