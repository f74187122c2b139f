import StatusPanel.Proofs.Screen.BarInk
import StatusPanel.Asset.Builtin
import StatusPanel.Screen.Drawing

/-!
# The places of the screen parts

The areas that the strokes of a part cover. They depend on the layout and on the sizes of the
pictures, not on the status that the part shows: so a part that is drawn again covers what it drew
before, and nothing of another part.

## Main definitions

* `Asset.width`, `Asset.height`: the sizes of the built-in pictures
* `Gallery.Sized`, `Gallery.Complete`: pictures of these sizes, if they loaded; all of them
* `Part.places`: the areas that a part covers
* `Drawing.Covers`: the pixels that strokes cover

## Main results

* `Part.eq_of_has`: no pixel is in the places of two parts, apart from the background
* `Drawing.has_of_covers_part`, `Drawing.covers_part_iff`: a part covers its places
* `Drawing.fits_part`: the strokes of a part lie on the panel
* `Gallery.complete_builtin`: the built-in pictures have the built-in sizes
-/

namespace StatusPanel

/-! ## The sizes of pictures -/

namespace Asset

/-- The width of the built-in picture. -/
def width : Asset → UInt16
  | .modeDvorak | .modeQwerty | .modeStenography => 48
  | .speedIndicator => 8
  | .checkboxYes | .checkboxNo => 10
  | .capsOn | .capsOff | .numOn | .numOff | .scrollOn | .scrollOff => 12
  | .separatorOffOff | .separatorOnOff | .separatorOffOn | .separatorOnOn => 3

/-- The height of the built-in picture. -/
def height : Asset → UInt16
  | .modeDvorak | .modeQwerty | .modeStenography => 16
  | .speedIndicator => 8
  | .checkboxYes | .checkboxNo | .capsOn | .capsOff | .numOn | .numOff | .scrollOn | .scrollOff
  | .separatorOffOff | .separatorOnOff | .separatorOffOn | .separatorOnOn => 10

/-- The area of the built-in picture with its corner at a pixel. -/
def areaAt (a : Asset) (x y : UInt16) : Area := ⟨x, y, a.width, a.height⟩

@[simp] theorem areaAt_defaultLayer (mask : LayerMask) (x y : UInt16) :
    (defaultLayer mask).areaAt x y = ⟨x, y, 48, 16⟩ := by
  unfold defaultLayer
  split
  · rfl
  · split <;> rfl

@[simp] theorem areaAt_checkbox (active : Bool) (x y : UInt16) :
    (checkbox active).areaAt x y = ⟨x, y, 10, 10⟩ := by
  cases active <;> rfl

@[simp] theorem areaAt_lockIcon (key : LockKey) (on : Bool) (x y : UInt16) :
    (lockIcon key on).areaAt x y = ⟨x, y, 12, 10⟩ := by
  cases key <;> cases on <;> rfl

@[simp] theorem areaAt_separator (shape : Separator) (x y : UInt16) :
    (separator shape).areaAt x y = ⟨x, y, 3, 10⟩ := by
  cases shape <;> rfl

end Asset

namespace Gallery

/-- Every picture that loaded has the size of the built-in one. -/
def Sized (g : Gallery Bitmap) : Prop :=
  ∀ a b, g.get? a = some b → b.width = a.width ∧ b.height = a.height

/-- Every picture loaded, in the size of the built-in one. -/
structure Complete (g : Gallery Bitmap) : Prop where
  sized : g.Sized
  loaded (a : Asset) : g.get? a ≠ none

/-- The built-in pictures. -/
def builtin : Gallery Bitmap := .load (Bitmap.load Builtin.table)

theorem complete_builtin : builtin.Complete := by
  -- the files are read: each of them decodes, to a picture of its size
  have hsize : ∀ a ∈ Asset.all, (Bitmap.load Builtin.table a).map (fun b => (b.width, b.height)) =
      some (a.width, a.height) := by decide
  have h (a : Asset) := hsize a (Asset.mem_all a)
  constructor
  · intro a b hb
    have ha := h a
    rw [builtin, get?_load] at hb
    rw [hb, Option.map_some, Option.some_inj] at ha
    exact Prod.mk.inj ha
  · intro a hn
    have ha := h a
    rw [builtin, get?_load] at hn
    rw [hn] at ha
    cases ha

end Gallery

/-! ## The areas of a part -/

namespace Layout

/-- The bits of the effect index. -/
def effectBits : List UInt8 := [0, 1, 2, 3, 4, 5]

/-- The square of a bit of the effect index. -/
def effectSquare (bit : UInt8) : Area :=
  ⟨effectSquareX bit, effectIndex.y, squareSize, squareSize⟩

end Layout

namespace Part

/-- The areas that the strokes of a part cover. -/
def places : Part → List Area
  | .background => [Layout.screen]
  | .defaultLayer => [⟨Layout.defaultLayer.x, Layout.defaultLayer.y, 48, 16⟩]
  | .layers => Layout.checkboxX.map fun x => ⟨x, Layout.layers.y, 10, 10⟩
  | .locks =>
    [⟨Layout.capsX, Layout.locks.y, 12, 10⟩, ⟨Layout.numX, Layout.locks.y, 12, 10⟩,
      ⟨Layout.scrollX, Layout.locks.y, 12, 10⟩, ⟨Layout.leftSeparatorX, Layout.locks.y, 3, 10⟩,
      ⟨Layout.rightSeparatorX, Layout.locks.y, 3, 10⟩]
  | .lightingBars =>
    [Layout.hueBar.area, Layout.satBar.area, Layout.valBar.area, Layout.effectSpeedBar.area]
  | .effectIndex => Layout.effectBits.map Layout.effectSquare
  | .speed => [Layout.speedBar.area]

theorem proper_of_mem_places {part : Part} {a : Area} (h : a ∈ part.places) : a.Proper := by
  have hall : ∀ a ∈ part.places, a.Proper := by cases part <;> decide
  exact hall a h

theorem containsArea_of_mem_places {part : Part} {a : Area} (h : a ∈ part.places) :
    part.area.containsArea a = true := by
  have hall : ∀ a ∈ part.places, part.area.containsArea a = true := by cases part <;> decide
  exact hall a h

theorem proper_area (part : Part) : part.area.Proper := by cases part <;> decide

theorem has_area {part : Part} {a : Area} (h : a ∈ part.places) {x y : Nat} (hxy : a.Has x y) :
    part.area.Has x y :=
  Area.has_of_containsArea part.proper_area.fits (proper_of_mem_places h).fits
    (containsArea_of_mem_places h) hxy

theorem onPanel_of_has {part : Part} {a : Area} (h : a ∈ part.places) {x y : Nat}
    (hxy : a.Has x y) : OnPanel x y := by
  have hs : Layout.screen.Has x y :=
    Area.has_of_containsArea (proper_area .background).fits part.proper_area.fits
      (Layout.screen_containsArea part) (has_area h hxy)
  exact ⟨hs.2.1, hs.2.2.2⟩

/-- A pixel is in the places of at most one part, apart from the background. -/
theorem eq_of_has {p q : Part} (hp : p ≠ .background) (hq : q ≠ .background) {a b : Area}
    (ha : a ∈ p.places) (hb : b ∈ q.places) {x y : Nat} (hx : a.Has x y) (hy : b.Has x y) :
    p = q :=
  Layout.overlaps_area hp hq
    (Area.overlaps_of_has p.proper_area.fits q.proper_area.fits (has_area ha hx) (has_area hb hy))

end Part

/-! ## What is covered -/

namespace Drawing

/-- Whether one of the strokes covers a pixel. -/
def Covers (strokes : List (Stroke Bitmap)) (x y : Nat) : Prop := ink strokes x y ≠ none

theorem covers_cons {s : Stroke Bitmap} {rest : List (Stroke Bitmap)} {x y : Nat} :
    Covers (s :: rest) x y ↔ s.ink x y ≠ none ∨ Covers rest x y := by
  rw [Covers, Covers, ink_cons, ne_eq, Option.or_eq_none_iff, Classical.not_and_iff_not_or_not,
    or_comm]

theorem covers_append {xs ys : List (Stroke Bitmap)} {x y : Nat} :
    Covers (xs ++ ys) x y ↔ Covers xs x y ∨ Covers ys x y := by
  rw [Covers, Covers, Covers, ink_append, ne_eq, Option.or_eq_none_iff,
    Classical.not_and_iff_not_or_not, or_comm]

theorem covers_flatMap {α : Type} {as : List α} {f : α → List (Stroke Bitmap)} {x y : Nat} :
    Covers (as.flatMap f) x y ↔ ∃ a ∈ as, Covers (f a) x y := by
  induction as with
  | nil => simp [Covers]
  | cons a as ih => simp [covers_append, ih]

theorem covers_bar {bar : Bar} (h : bar.area.Proper) {value scale x y : Nat} :
    Covers (bar.strokes value scale) x y ↔ bar.area.Has x y := by
  rw [Covers, Bar.ink_strokes h]
  simp

/-- An asset that loaded covers its area, and one that did not covers nothing. -/
theorem covers_stroke {g : Gallery Bitmap} (hg : g.Sized) {a : Asset} {left top : UInt16}
    {x y : Nat} :
    Covers (g.stroke a left top) x y ↔ g.get? a ≠ none ∧ (a.areaAt left top).Has x y := by
  unfold Gallery.stroke
  cases ha : g.get? a with
  | none => simp [Covers]
  | some b =>
    obtain ⟨hw, hh⟩ := hg a b ha
    simp [Covers, Stroke.ink, Asset.areaAt, Area.Has, hw, hh]

/-- A square of the effect index is cleared first, and filled or outlined then. -/
theorem ink_effectSquare {bit : UInt8} (h : (Layout.effectSquare bit).Proper) (lighting : Lighting)
    (x y : Nat) :
    ink (effectSquare lighting bit) x y =
      if (Layout.effectSquare bit).Has x y then
        some (lighting.effectBit bit || decide ((Layout.effectSquare bit).OnEdge x y))
      else none := by
  let a := Layout.effectSquare bit
  have hreach (u : UInt16) : u + Layout.squareSize - 1 = u + Area.reach Layout.squareSize := by
    rw [UInt16.sub_eq_add_neg, UInt16.add_assoc]
    rfl
  have hstrokes : (effectSquare lighting bit : List (Stroke Bitmap)) =
      [.rect a.x a.y a.right a.bottom .black true,
        .rect a.x a.y a.right a.bottom .white (lighting.effectBit bit)] := by
    simp only [effectSquare, hreach]
    rfl
  rw [hstrokes, ink_cons, ink_cons, ink_nil, Option.none_or, Area.ink_rect h, Area.ink_rect h]
  by_cases hin : (Layout.effectSquare bit).Has x y
  · -- the second stroke counts where it covers the square, and the clearing elsewhere
    cases lighting.effectBit bit with
    | true => simp [hin]
    | false => by_cases hedge : (Layout.effectSquare bit).OnEdge x y <;> simp [hin, hedge]
  · simp [hin]

theorem covers_effectSquare {bit : UInt8} (h : (Layout.effectSquare bit).Proper)
    {lighting : Lighting} {x y : Nat} :
    Covers (effectSquare lighting bit) x y ↔ (Layout.effectSquare bit).Has x y := by
  rw [Covers, ink_effectSquare h]
  simp

theorem covers_erase {x y : Nat} :
    (erase : Stroke Bitmap).ink x y ≠ none ↔ Layout.screen.Has x y := by
  have hscreen : (erase : Stroke Bitmap) = .rect Layout.screen.x Layout.screen.y
      Layout.screen.right Layout.screen.bottom .black true := rfl
  have hproper : Layout.screen.Proper := Part.proper_area .background
  rw [hscreen, Area.ink_rect hproper]
  simp

/-- A part covers nothing outside of its places. -/
theorem has_of_covers_part {g : Gallery Bitmap} (hg : g.Sized) {scale : UInt16} {status : Status}
    {p : Part} {x y : Nat} (h : Covers (part g scale status p) x y) :
    ∃ a ∈ p.places, a.Has x y := by
  cases p with
  | background =>
    -- the screen is erased, and the speed indicator drawn on it
    refine ⟨_, List.mem_singleton_self _, ?_⟩
    rcases covers_cons.1 h with he | hd
    · exact covers_erase.1 he
    · have hi := ((covers_stroke hg).1 hd).2
      exact Area.has_of_containsArea (Part.proper_area .background).fits
        (Area.Proper.fits (by decide)) (by decide) hi
  | defaultLayer =>
    have hi := ((covers_stroke hg).1 h).2
    rw [Asset.areaAt_defaultLayer] at hi
    exact ⟨_, List.mem_singleton_self _, hi⟩
  | layers =>
    -- each checkbox is drawn at its own column
    obtain ⟨⟨layer, u⟩, hm, hc⟩ := covers_flatMap.1 h
    have hi := ((covers_stroke hg).1 hc).2
    rw [Asset.areaAt_checkbox] at hi
    exact ⟨_, List.mem_map_of_mem (List.of_mem_zip hm).2, hi⟩
  | locks =>
    simp only [part, locks, lockIcon, separator, covers_append, covers_stroke hg,
      Asset.areaAt_lockIcon, Asset.areaAt_separator] at h
    simp only [Part.places, List.mem_cons, List.not_mem_nil, or_false, exists_eq_or_imp,
      exists_eq_left]
    -- three icons and two separators
    rcases h with (((h | h) | h) | h) | h <;> simp [h.2]
  | lightingBars =>
    simp only [part, lightingBars, covers_append] at h
    simp only [Part.places, List.mem_cons, List.not_mem_nil, or_false, exists_eq_or_imp,
      exists_eq_left]
    rwa [covers_bar (by decide), covers_bar (by decide), covers_bar (by decide),
      covers_bar (by decide), or_assoc, or_assoc] at h
  | effectIndex =>
    obtain ⟨bit, hm, hc⟩ := covers_flatMap.1 h
    have hp : Layout.effectSquare bit ∈ Part.effectIndex.places := List.mem_map_of_mem hm
    exact ⟨_, hp, (covers_effectSquare (Part.proper_of_mem_places hp)).1 hc⟩
  | speed =>
    exact ⟨_, List.mem_singleton_self _, (covers_bar (by decide)).1 h⟩

/-- A part whose pictures loaded covers its places, whatever it shows. -/
theorem covers_part_iff {g : Gallery Bitmap} (hg : g.Complete) {scale : UInt16} {status : Status}
    {p : Part} {x y : Nat} :
    Covers (part g scale status p) x y ↔ ∃ a ∈ p.places, a.Has x y := by
  refine ⟨has_of_covers_part hg.sized, ?_⟩
  rintro ⟨a, ha, hxy⟩
  -- Each place has its stroke, and the picture of the stroke loaded.
  cases p with
  | background =>
    obtain rfl := List.mem_singleton.1 ha
    exact covers_cons.2 (Or.inl (covers_erase.2 hxy))
  | defaultLayer =>
    obtain rfl := List.mem_singleton.1 ha
    exact (covers_stroke hg.sized).2 ⟨hg.loaded _, by rwa [Asset.areaAt_defaultLayer]⟩
  | layers =>
    obtain ⟨u, hu, rfl⟩ := List.mem_map.1 ha
    -- the layer whose checkbox is at this column
    obtain ⟨layer, hl⟩ : ∃ layer, (layer, u) ∈ Layer.indicated.zip Layout.checkboxX := by
      simp only [Layout.checkboxX, List.mem_cons, List.not_mem_nil, or_false] at hu
      rcases hu with rfl | rfl
      · exact ⟨.symbols, by decide⟩
      · exact ⟨.control, by decide⟩
    refine covers_flatMap.2 ⟨(layer, u), hl, ?_⟩
    exact (covers_stroke hg.sized).2 ⟨hg.loaded _, by rwa [Asset.areaAt_checkbox]⟩
  | locks =>
    simp only [Part.places, List.mem_cons, List.not_mem_nil, or_false] at ha
    simp only [part, locks, lockIcon, separator, covers_append, covers_stroke hg.sized,
      Asset.areaAt_lockIcon, Asset.areaAt_separator, hg.loaded, ne_eq, not_false_eq_true, true_and]
    rcases ha with rfl | rfl | rfl | rfl | rfl <;> simp [hxy]
  | lightingBars =>
    simp only [Part.places, List.mem_cons, List.not_mem_nil, or_false] at ha
    simp only [part, lightingBars, covers_append]
    rw [covers_bar (by decide), covers_bar (by decide), covers_bar (by decide),
      covers_bar (by decide)]
    rcases ha with rfl | rfl | rfl | rfl <;> simp [hxy]
  | effectIndex =>
    have hp := Part.proper_of_mem_places ha
    obtain ⟨bit, hb, rfl⟩ := List.mem_map.1 ha
    exact covers_flatMap.2 ⟨bit, hb, (covers_effectSquare hp).2 hxy⟩
  | speed =>
    obtain rfl := List.mem_singleton.1 ha
    exact (covers_bar (by decide)).2 hxy

/-! ## Strokes that lie on the panel -/

/-- The picture of an asset lies on the panel if the built-in one does. -/
theorem fits_of_mem_stroke {g : Gallery Bitmap} (hg : g.Sized) {a : Asset} {left top : UInt16}
    {area : Area} (ha : a.areaAt left top = area)
    (hx : area.x.toNat + area.width.toNat ≤ panelWidth)
    (hy : area.y.toNat + area.height.toNat ≤ panelHeight)
    {s : Stroke Bitmap} (hs : s ∈ g.stroke a left top) : s.fits = true := by
  subst ha
  unfold Gallery.stroke at hs
  cases hb : g.get? a with
  | none => simp [hb] at hs
  | some b =>
    obtain ⟨hw, hh⟩ := hg a b hb
    simp only [hb, List.mem_singleton] at hs
    subst hs
    simp only [Stroke.fits, hw, hh, Bool.and_eq_true, decide_eq_true_eq]
    exact ⟨hx, hy⟩

theorem fits_of_mem_effectSquare {bit : UInt8} (hb : bit ∈ Layout.effectBits)
    {lighting : Lighting} {s : Stroke Bitmap} (hs : s ∈ effectSquare lighting bit) :
    s.fits = true := by
  simp only [Layout.effectBits, List.mem_cons, List.not_mem_nil, or_false] at hb
  simp only [effectSquare, List.mem_cons, List.not_mem_nil, or_false] at hs
  rcases hb with rfl | rfl | rfl | rfl | rfl | rfl <;> rcases hs with rfl | rfl <;> rfl

/-- The strokes of a part lie on the panel. -/
theorem fits_part {g : Gallery Bitmap} (hg : g.Sized) {scale : UInt16} {status : Status} {p : Part}
    {s : Stroke Bitmap} (hs : s ∈ part g scale status p) : s.fits = true := by
  cases p with
  | background =>
    rcases List.mem_cons.1 hs with rfl | hs
    · rfl
    · exact fits_of_mem_stroke hg rfl (by decide) (by decide) hs
  | defaultLayer =>
    exact fits_of_mem_stroke hg (Asset.areaAt_defaultLayer ..) (by decide) (by decide) hs
  | layers =>
    obtain ⟨⟨layer, u⟩, hm, hs⟩ := List.mem_flatMap.1 hs
    have hu : u.toNat + 10 ≤ panelWidth := by
      have hx := (List.of_mem_zip hm).2
      simp only [Layout.checkboxX, List.mem_cons, List.not_mem_nil, or_false] at hx
      rcases hx with rfl | rfl <;> decide
    have hl : Layout.layers.y.toNat + 10 ≤ panelHeight := by decide
    exact fits_of_mem_stroke hg (Asset.areaAt_checkbox ..) hu hl hs
  | locks =>
    simp only [part, locks, List.mem_append] at hs
    rcases hs with (((hs | hs) | hs) | hs) | hs
    · exact fits_of_mem_stroke hg (Asset.areaAt_lockIcon ..) (by decide) (by decide) hs
    · exact fits_of_mem_stroke hg (Asset.areaAt_lockIcon ..) (by decide) (by decide) hs
    · exact fits_of_mem_stroke hg (Asset.areaAt_lockIcon ..) (by decide) (by decide) hs
    · exact fits_of_mem_stroke hg (Asset.areaAt_separator ..) (by decide) (by decide) hs
    · exact fits_of_mem_stroke hg (Asset.areaAt_separator ..) (by decide) (by decide) hs
  | lightingBars =>
    simp only [part, lightingBars, List.mem_append] at hs
    rcases hs with ((hs | hs) | hs) | hs
    · exact Bar.fits_of_mem_strokes (by decide) (by decide) (by decide) hs
    · exact Bar.fits_of_mem_strokes (by decide) (by decide) (by decide) hs
    · exact Bar.fits_of_mem_strokes (by decide) (by decide) (by decide) hs
    · exact Bar.fits_of_mem_strokes (by decide) (by decide) (by decide) hs
  | effectIndex =>
    obtain ⟨bit, hm, hs⟩ := List.mem_flatMap.1 hs
    exact fits_of_mem_effectSquare hm hs
  | speed => exact Bar.fits_of_mem_strokes (by decide) (by decide) (by decide) hs

end Drawing

end StatusPanel
