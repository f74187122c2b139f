import StatusPanel.Proofs.Panel.Steady
import StatusPanel.Proofs.Screen.Looks
import StatusPanel.Proofs.Screen.RememberedLighting

/-!
# The slots of the pictures

Nine places of the screen are for one picture each, which the state of the keyboard selects. A
picture is drawn over the one that was there, and nothing is drawn for an asset that did not load;
only the redraw of the whole screen erases. So a slot holds the last picture that loaded among those
selected for it since then. It is blank if none of them loaded, and shows a picture of an earlier
state if only the last one did not.

## Main definitions

* `Slot`: the places, with their parts, areas and assets
* `Slot.Holds`: a surface shows a picture, or nothing, in a slot
* `Slot.history`: the assets that were selected since the screen was erased
* `Painter.performAll`: a painter and its surface after acts

## Main results

* `Slot.ink_part`: what the parts draw in a slot
* `Slot.holds_redraw`, `Slot.holds_perform`: what a redraw and an act leave there
* `Slot.holds_performAll_iff`: what a slot holds after every run, and when it is what was selected
-/

namespace StatusPanel

open PixelSurface

/-- A place of the screen for one picture. -/
inductive Slot
  | defaultLayer
  | symbols
  | control
  | lock (key : LockKey)
  | leftSeparator
  | rightSeparator
  | speedIcon
  deriving DecidableEq, Repr

theorem Part.mem_all (q : Part) : q ∈ all := by cases q <;> decide

namespace Slot

/-- All slots. -/
def all : List Slot :=
  [.defaultLayer, .symbols, .control, .lock .caps, .lock .num, .lock .scroll, .leftSeparator,
    .rightSeparator, .speedIcon]

theorem mem_all (k : Slot) : k ∈ all := by
  cases k with
  | lock key => cases key <;> decide
  | _ => decide

/-- The part that draws a slot. -/
def part : Slot → Part
  | .defaultLayer => .defaultLayer
  | .symbols | .control => .layers
  | .lock _ | .leftSeparator | .rightSeparator => .locks
  | .speedIcon => .background

/-- The area of a slot. -/
def area : Slot → Area
  | .defaultLayer => ⟨Layout.defaultLayer.x, Layout.defaultLayer.y, 48, 16⟩
  | .symbols => ⟨0, Layout.layers.y, 10, 10⟩
  | .control => ⟨24, Layout.layers.y, 10, 10⟩
  | .lock .caps => ⟨Layout.capsX, Layout.locks.y, 12, 10⟩
  | .lock .num => ⟨Layout.numX, Layout.locks.y, 12, 10⟩
  | .lock .scroll => ⟨Layout.scrollX, Layout.locks.y, 12, 10⟩
  | .leftSeparator => ⟨Layout.leftSeparatorX, Layout.locks.y, 3, 10⟩
  | .rightSeparator => ⟨Layout.rightSeparatorX, Layout.locks.y, 3, 10⟩
  | .speedIcon => ⟨Layout.speedIconX, Layout.speedIconY, 8, 8⟩

/-- The asset that a status selects for a slot. -/
def asset (status : Status) : Slot → Asset
  | .defaultLayer => .defaultLayer status.defaultLayers
  | .symbols => .checkbox (status.layers.contains .symbols)
  | .control => .checkbox (status.layers.contains .control)
  | .lock key => .lockIcon key (status.locks.get key)
  | .leftSeparator => .separator status.locks.leftSeparator
  | .rightSeparator => .separator status.locks.rightSeparator
  | .speedIcon => .speedIndicator

theorem areaAt_asset (k : Slot) (status : Status) :
    (k.asset status).areaAt k.area.x k.area.y = k.area := by
  cases k with
  | lock key => cases key <;> exact Asset.areaAt_lockIcon ..
  | defaultLayer => exact Asset.areaAt_defaultLayer ..
  | symbols | control => exact Asset.areaAt_checkbox ..
  | leftSeparator | rightSeparator => exact Asset.areaAt_separator ..
  | speedIcon => rfl

/-! ## Where the slots are -/

theorem proper_area (k : Slot) : k.area.Proper := by
  have hall : ∀ k ∈ all, k.area.Proper := by decide
  exact hall k k.mem_all

/-- A pixel is in at most one slot. -/
theorem eq_of_has {k l : Slot} {x y : Nat} (hk : k.area.Has x y) (hl : l.area.Has x y) : k = l := by
  have hall : ∀ k ∈ all, ∀ l ∈ all, k.area.overlaps l.area = true → k = l := by decide
  exact hall k k.mem_all l l.mem_all
    (Area.overlaps_of_has k.proper_area.fits l.proper_area.fits hk hl)

/-- A slot is outside of every part but its own and the background. -/
theorem part_eq_of_has {k : Slot} {q : Part} (hq : q ≠ .background) {a : Area} (ha : a ∈ q.places)
    {x y : Nat} (hk : k.area.Has x y) (hxy : a.Has x y) : k.part = q := by
  have hall : ∀ k ∈ all, ∀ q ∈ Part.all, q ≠ .background → k.area.overlaps q.area = true →
      k.part = q := by decide
  exact hall k k.mem_all q q.mem_all hq
    (Area.overlaps_of_has k.proper_area.fits q.proper_area.fits hk (Part.has_area ha hxy))

theorem onPanel_of_has {k : Slot} {x y : Nat} (hk : k.area.Has x y) : OnPanel x y := by
  have hall : ∀ k ∈ all, Layout.screen.containsArea k.area = true := by decide
  have hscreen := Area.has_of_containsArea (Part.proper_area .background).fits k.proper_area.fits
    (hall k k.mem_all) hk
  exact ⟨hscreen.2.1, hscreen.2.2.2⟩

end Slot

/-! ## What the parts draw in a slot -/

/-- The slots of a part, in drawing order. -/
def Part.slots : Part → List Slot
  | .background => [.speedIcon]
  | .defaultLayer => [.defaultLayer]
  | .layers => [.symbols, .control]
  | .locks => [.lock .caps, .lock .num, .lock .scroll, .leftSeparator, .rightSeparator]
  | .lightingBars | .effectIndex | .speed => []

namespace Slot

variable {g : Gallery Bitmap} {scale : UInt16} {status : Status} {k : Slot} {x y : Nat}

theorem mem_slots_iff {q : Part} : k ∈ q.slots ↔ k.part = q := by
  have hall : ∀ k ∈ all, ∀ q ∈ Part.all, k ∈ q.slots ↔ k.part = q := by decide
  exact hall k k.mem_all q q.mem_all

/-- The strokes of the pictures of a part. -/
def strokes (g : Gallery Bitmap) (status : Status) (q : Part) : List (Stroke Bitmap) :=
  q.slots.flatMap fun k => g.stroke (k.asset status) k.area.x k.area.y

/-- A part with slots draws their pictures; the background erases the screen before. -/
theorem part_eq_strokes (g : Gallery Bitmap) (scale : UInt16) (status : Status) {q : Part}
    (hq : q.slots ≠ []) :
    Drawing.part g scale status q =
      (if q = .background then [Drawing.erase] else []) ++ strokes g status q := by
  cases q with
  | background => simp [strokes, Part.slots, Drawing.part, Drawing.decoration, asset, area]
  | defaultLayer => simp [strokes, Part.slots, Drawing.part, Drawing.defaultLayer, asset, area]
  | layers => rfl
  | locks =>
    simp [strokes, Part.slots, Drawing.part, Drawing.locks, Drawing.lockIcon, Drawing.separator,
      asset, area]
  | _ => exact absurd rfl hq

/-- What a picture, or none, sets a pixel of a slot to. -/
def ink (k : Slot) (picture : Option Bitmap) (x y : Nat) : Option Bool :=
  picture.map fun b => b.pixel (x - k.area.x.toNat) (y - k.area.y.toNat)

theorem ink_stroke (hg : g.Sized) (status : Status) (hxy : k.area.Has x y) :
    Drawing.ink (g.stroke (k.asset status) k.area.x k.area.y) x y =
      k.ink (g.get? (k.asset status)) x y := by
  unfold Gallery.stroke ink
  cases hpicture : g.get? (k.asset status) with
  | none => rfl
  | some b =>
    have hsize := hg _ _ hpicture
    have harea := k.areaAt_asset status
    rw [Drawing.ink_cons, Drawing.ink_nil, Option.none_or, Stroke.ink, if_pos]
    · rfl
    · rw [← harea] at hxy
      rw [hsize.1, hsize.2]
      exact hxy

theorem ink_erase (h : OnPanel x y) : (Drawing.erase : Stroke Bitmap).ink x y = some false := by
  have hin : Layout.screen.Has x y := ⟨Nat.zero_le _, h.1, Nat.zero_le _, h.2⟩
  have hscreen : (Drawing.erase : Stroke Bitmap) = .rect Layout.screen.x Layout.screen.y
      Layout.screen.right Layout.screen.bottom .black true := rfl
  have hproper : Layout.screen.Proper := Part.proper_area .background
  rw [hscreen, Area.ink_rect hproper, if_pos ⟨hin, Or.inl rfl⟩, Color.isLit_black]

theorem ink_strokes (hg : g.Sized) (q : Part) (hxy : k.area.Has x y) :
    Drawing.ink (strokes g status q) x y =
      if k.part = q then k.ink (g.get? (k.asset status)) x y else none := by
  -- the pictures of the other slots are elsewhere
  have honly : ∀ l ∈ q.slots,
      Drawing.Covers (g.stroke (l.asset status) l.area.x l.area.y) x y → l = k := by
    intro l _ hcovers
    have hl := ((Drawing.covers_stroke hg).1 hcovers).2
    rw [l.areaAt_asset] at hl
    exact eq_of_has hl hxy
  split
  case isTrue hkq =>
    rw [← ink_stroke hg status hxy]
    exact Drawing.ink_flatMap_of_mem (mem_slots_iff.2 hkq) honly
  case isFalse hkq =>
    by_contra hcovers
    obtain ⟨l, hl, hlcovers⟩ := Drawing.covers_flatMap.1 hcovers
    obtain rfl := honly l hl hlcovers
    exact hkq (mem_slots_iff.1 hl)

/-- In a slot its own part draws the picture that is selected, the background erases, and the other
parts draw nothing. -/
theorem ink_part (hg : g.Sized) (q : Part) (hxy : k.area.Has x y) :
    Drawing.ink (Drawing.part g scale status q) x y =
      (if k.part = q then k.ink (g.get? (k.asset status)) x y else none).or
        (if q = .background then some false else none) := by
  by_cases hslots : q.slots = []
  · -- the bars and squares are not in a slot
    have hq : q ≠ .background := by
      rintro rfl
      cases hslots
    have hkq : k.part ≠ q := fun hkq => List.ne_nil_of_mem (mem_slots_iff.2 hkq) hslots
    rw [if_neg hkq, if_neg hq, Option.or_none]
    by_contra hcovers
    obtain ⟨a, ha, hin⟩ := Drawing.has_of_covers_part hg hcovers
    exact hkq (part_eq_of_has hq ha hxy hin)
  · rw [part_eq_strokes g scale status hslots, Drawing.ink_append, ink_strokes hg q hxy]
    split
    all_goals
      split
      · rw [Drawing.ink_cons, Drawing.ink_nil, Option.none_or, ink_erase (onPanel_of_has hxy)]
      · rfl

/-! ## What a slot holds -/

/-- A surface shows a picture in a slot, or nothing. -/
def Holds {S : Type} [PixelSurface S] (surface : S) (k : Slot) (picture : Option Bitmap) : Prop :=
  ∀ x y, k.area.Has x y → pixel surface x y = (k.ink picture x y).getD false

/-- A picture that is blank, or none. -/
def Blank (k : Slot) (picture : Option Bitmap) : Prop :=
  ∀ x y, k.area.Has x y → (k.ink picture x y).getD false = false

/-- The assets that were selected for a slot since the screen was erased, the last one first, after
the redraw of a part. -/
def record (k : Slot) (status : Status) (assets : List Asset) (q : Part) : List Asset :=
  let kept := if q = .background then [] else assets
  if k.part = q then k.asset status :: kept else kept

variable {p : Painter Bitmap} {panel : Panel} {assets : List Asset}

theorem pixel_redraw (hg : p.gallery.Sized) (hr : panel.ready = true) (status : Status) (q : Part)
    (hxy : k.area.Has x y) :
    pixel (p.redraw panel status q).2 x y =
      (if k.part = q then k.ink (p.gallery.get? (k.asset status)) x y else none).getD
        (if q = .background then false else pixel panel x y) := by
  have hok : (drawAll panel (Drawing.part p.gallery p.scale status q)).2 = .ok () :=
    Panel.drawAll_of_fits hr fun _ hs => Drawing.fits_part hg hs
  rw [Painter.redraw_snd, pixel_paint, pixel_drawAll_of_ok hok (onPanel_of_has hxy),
    ink_part hg q hxy, Option.getD_or]
  congr 1
  split <;> rfl

/-- The redraw of a part puts the picture that is selected, if it loaded, over the one that was
there, unless the part erases that one. -/
theorem holds_redraw (hg : p.gallery.Sized) (hr : panel.ready = true) (status : Status) {q : Part}
    (h : q ≠ .background → k.Holds panel (assets.findSome? p.gallery.get?)) :
    k.Holds (p.redraw panel status q).2
      ((k.record status assets q).findSome? p.gallery.get?) := by
  intro x y hxy
  let kept := if q = .background then [] else assets
  have hkept : (if q = .background then false else pixel panel x y) =
      (k.ink (kept.findSome? p.gallery.get?) x y).getD false := by
    unfold kept
    split
    case isTrue => rfl
    case isFalse hq => exact h hq x y hxy
  rw [pixel_redraw hg hr status q hxy, hkept]
  unfold record
  split
  case isTrue =>
    rw [List.findSome?_cons]
    cases p.gallery.get? (k.asset status) <;> rfl
  case isFalse => rfl

theorem holds_redrawParts (hg : p.gallery.Sized) (hr : panel.ready = true) (status : Status)
    {parts : List Part}
    (h : parts.head? = some .background ∨ k.Holds panel (assets.findSome? p.gallery.get?)) :
    k.Holds (p.redrawParts panel status parts).2
      ((parts.foldl (k.record status) assets).findSome? p.gallery.get?) := by
  -- Induction on the parts: what was there before counts unless the first one erases it.
  induction parts generalizing p panel assets with
  | nil => exact h.resolve_left nofun
  | cons q rest ih =>
    have hg' : (p.redraw panel status q).1.gallery.Sized := by rwa [Painter.gallery_redraw]
    have hr' : (p.redraw panel status q).2.ready = true := by rwa [ready_redraw]
    have hnext : k.Holds (p.redraw panel status q).2
        ((k.record status assets q).findSome? p.gallery.get?) :=
      holds_redraw hg hr status fun hq => h.resolve_left fun hhead => hq (Option.some.inj hhead)
    rw [← p.gallery_redraw panel status q] at hnext ⊢
    exact ih hg' hr' (Or.inr hnext)

end Slot

/-! ## Runs of a painter -/

namespace Painter

variable {S ι : Type} [Surface S ι]

theorem painted_perform (p : Painter ι) (surface : S) (act : Act) :
    Painted surface (p.perform surface act).2 := by
  rw [perform_eq]
  exact p.painted_redrawParts ..

/-- The painter and its surface after acts. -/
def performAll (p : Painter ι) (surface : S) : List Act → Painter ι × S
  | [] => (p, surface)
  | act :: rest => performAll (p.perform surface act).1 (p.perform surface act).2 rest

theorem painted_performAll (p : Painter ι) (surface : S) (acts : List Act) :
    Painted surface (p.performAll surface acts).2 := by
  induction acts generalizing p surface with
  | nil => exact .refl
  | cons act rest ih => exact (p.painted_perform surface act).trans (ih _ _)

end Painter

namespace Slot

variable {p : Painter Bitmap} {panel : Panel} {assets : List Asset} {k : Slot}

/-- The asset that an act selects for a slot, if it draws there. -/
def chosen : Slot → Painter.Act → Option Asset
  | k, .all status => some (k.asset status)
  | .defaultLayer, .defaultLayer mask => some (.defaultLayer mask)
  | .symbols, .layers mask => some (.checkbox (mask.contains .symbols))
  | .control, .layers mask => some (.checkbox (mask.contains .control))
  | .lock key, .locks locks => some (.lockIcon key (locks.get key))
  | .leftSeparator, .locks locks => some (.separator locks.leftSeparator)
  | .rightSeparator, .locks locks => some (.separator locks.rightSeparator)
  | _, _ => none

/-- The assets that were selected for a slot since the screen was erased, after one more act. -/
def select (k : Slot) (assets : List Asset) (act : Painter.Act) : List Asset :=
  match act with
  | .all _ => (k.chosen act).toList
  | _ => (k.chosen act).toList ++ assets

/-- The assets that were selected for a slot since the screen was erased, the last one first. -/
def history (k : Slot) (acts : List Painter.Act) : List Asset := acts.foldl k.select []

/-- What an act selects is what it draws, part by part. -/
theorem foldl_record_redrawn (p : Painter Bitmap) (k : Slot) (assets : List Asset)
    (act : Painter.Act) :
    (p.redrawn act).2.foldl (k.record (p.redrawn act).1) assets = k.select assets act := by
  cases act with
  | all status => cases k <;> simp [Painter.redrawn, Part.all, record, part, select, chosen]
  | tick status =>
    -- neither the speed nor the lighting has a slot
    rw [Painter.redrawn, Painter.tickParts]
    split <;> cases k <;> rfl
  | _ => cases k <;> rfl

theorem holds_perform (hg : p.gallery.Sized) (hr : panel.ready = true) {act : Painter.Act}
    (h : (p.redrawn act).2.head? = some .background ∨
      k.Holds panel (assets.findSome? p.gallery.get?)) :
    k.Holds (p.perform panel act).2 ((k.select assets act).findSome? p.gallery.get?) := by
  rw [Painter.perform_eq, ← foldl_record_redrawn p k assets act]
  exact holds_redrawParts hg hr _ h

/-- In every run a slot holds the last picture that loaded among those selected since the erase. -/
theorem holds_foldl_select (hg : p.gallery.Sized) (hr : panel.ready = true)
    {acts : List Painter.Act}
    (h : (∃ status, acts.head? = some (.all status)) ∨
      k.Holds panel (assets.findSome? p.gallery.get?)) :
    k.Holds (p.performAll panel acts).2
      ((acts.foldl k.select assets).findSome? p.gallery.get?) := by
  induction acts generalizing p panel assets with
  | nil => exact h.resolve_left nofun
  | cons act rest ih =>
    have hg' : (p.perform panel act).1.gallery.Sized := by rwa [Painter.gallery_perform]
    have hr' : (p.perform panel act).2.ready = true := by
      rwa [Painter.perform_eq, Painter.ready_redrawParts]
    have hnext : k.Holds (p.perform panel act).2
        ((k.select assets act).findSome? p.gallery.get?) := by
      refine holds_perform hg hr (h.imp_left ?_)
      rintro ⟨status, hhead⟩
      obtain rfl := Option.some.inj hhead
      rfl
    rw [← p.gallery_perform panel act] at hnext ⊢
    exact ih hg' hr' (Or.inr hnext)

theorem holds_history (hg : p.gallery.Sized) (hr : panel.ready = true) (status : Status)
    (acts : List Painter.Act) (k : Slot) :
    k.Holds (p.performAll panel (.all status :: acts)).2
      ((k.history (.all status :: acts)).findSome? p.gallery.get?) :=
  holds_foldl_select hg hr (Or.inl ⟨status, rfl⟩)

theorem exists_foldl_select_eq_cons (k : Slot) (asset : Asset) (rest : List Asset)
    (acts : List Painter.Act) :
    ∃ last earlier, acts.foldl k.select (asset :: rest) = last :: earlier := by
  -- an act adds to what was selected, or starts again with what it selects itself
  induction acts generalizing asset rest with
  | nil => exact ⟨asset, rest, rfl⟩
  | cons act acts ih =>
    obtain ⟨next, others, hselect⟩ : ∃ next others,
        k.select (asset :: rest) act = next :: others := by
      refine List.exists_cons_of_ne_nil ?_
      cases act with
      | all status => cases k <;> exact List.cons_ne_nil _ _
      | _ => exact List.append_ne_nil_of_right_ne_nil _ (List.cons_ne_nil asset rest)
    rw [List.foldl_cons, hselect]
    exact ih next others

/-- A slot that holds the last picture that loaded holds what was selected last if that one loaded,
or if the other one is blank. -/
theorem holds_last_iff {last : Asset} {earlier : List Asset}
    (h : k.Holds panel ((last :: earlier).findSome? p.gallery.get?)) :
    k.Holds panel (p.gallery.get? last) ↔
      p.gallery.get? last ≠ none ∨ k.Blank (earlier.findSome? p.gallery.get?) := by
  rw [List.findSome?_cons] at h
  cases hlast : p.gallery.get? last with
  | some b =>
    rw [hlast] at h
    exact ⟨fun _ => Or.inl (Option.some_ne_none b), fun _ => h⟩
  | none =>
    -- the slot holds one of the earlier pictures, which is to look like none
    rw [hlast] at h
    constructor
    · intro hblank
      refine Or.inr fun x y hxy => ?_
      rw [← h x y hxy, hblank x y hxy]
      rfl
    · rintro (hne | hblank)
      · exact absurd rfl hne
      · intro x y hxy
        rw [h x y hxy, hblank x y hxy]
        rfl

/-- **What a slot holds.** In every run of a painter that starts with a redraw of the whole screen,
on a panel that was brought up on a steady bus, every slot holds the last picture that loaded among
those selected for it since the screen was redrawn, and so does the memory of the panel. That is
the picture selected last, or nothing if it did not load, exactly if it loaded or the others were
blank. -/
theorem holds_performAll_iff (hg : p.gallery.Sized) (hsteady : panel.bus.Steady) (before : Memory)
    (status : Status) (acts : List Painter.Act) (k : Slot) :
    let shown := (p.performAll panel.bringUp.1 (.all status :: acts)).2
    k.Holds shown ((k.history (.all status :: acts)).findSome? p.gallery.get?) ∧
      (∀ x y, OnPanel x y → (shown.memory before).pixel x y = shown.canvas.pixel x y) ∧
      ∃ last earlier, k.history (.all status :: acts) = last :: earlier ∧
        (k.Holds shown (p.gallery.get? last) ↔
          p.gallery.get? last ≠ none ∨ k.Blank (earlier.findSome? p.gallery.get?)) := by
  intro shown
  have hfaithful : panel.bringUp.1.Faithful before := Panel.faithful_bringUp hsteady before
  have hholds := holds_history hg hfaithful.ready status acts k
  refine ⟨hholds, ?_, ?_⟩
  · have hdriven := (p.painted_performAll panel.bringUp.1 (.all status :: acts)).driven
    intro x y hxy
    exact (hfaithful.of_driven hdriven).pixel_memory hxy
  · obtain ⟨last, earlier, hlast⟩ := exists_foldl_select_eq_cons k (k.asset status) [] acts
    have hhistory : k.history (.all status :: acts) = acts.foldl k.select [k.asset status] := by
      cases k <;> rfl
    rw [hhistory, hlast] at hholds ⊢
    exact ⟨last, earlier, rfl, holds_last_iff hholds⟩

end Slot

/-! ## A checkbox that did not load -/

/-- The built-in pictures but for some that did not load. -/
def Gallery.without (missing : List Asset) : Gallery Bitmap :=
  .load fun a => if a ∈ missing then none else builtin.get? a

theorem Gallery.sized_without (missing : List Asset) : (without missing).Sized := by
  intro a b hb
  rw [without, get?_load] at hb
  split at hb
  · cases hb
  · exact complete_builtin.sized a b hb

namespace Slot

/-- A painter whose ticked checkbox did not load. -/
def unticked : Painter Bitmap := ⟨.without [.checkboxYes], 150, none⟩

/-- When the symbols layer is left again, its checkbox is empty as it should be. -/
theorem holds_performAll_unticked :
    unticked.gallery.Sized ∧ Panel.slate.bus.Steady ∧
      Slot.symbols.Holds (unticked.performAll Panel.slate.bringUp.1
        [.all (.boot .initial), .layers (.only .symbols), .layers .empty]).2
        (unticked.gallery.get? .checkboxNo) := by
  have hsized : unticked.gallery.Sized := Gallery.sized_without _
  have hsteady : Panel.slate.bus.Steady := Bus.steady_default
  refine ⟨hsized, hsteady, ?_⟩
  obtain ⟨-, -, last, earlier, hlast, hiff⟩ := holds_performAll_iff hsized hsteady .zero
    (.boot .initial) [.layers (.only .symbols), .layers .empty] .symbols
  have hhistory : Slot.symbols.history
      [.all (.boot .initial), .layers (.only .symbols), .layers .empty] =
      [.checkboxNo, .checkboxYes, .checkboxNo] := rfl
  obtain ⟨rfl, rfl⟩ := List.cons.inj (hhistory.symm.trans hlast)
  have hloaded : unticked.gallery.get? .checkboxNo ≠ none := by decide
  exact hiff.2 (Or.inl hloaded)

/-- While the symbols layer is active, the empty checkbox of before stays where the ticked one is
missing. -/
theorem not_holds_performAll_unticked :
    Slot.symbols.chosen (.layers (.only .symbols)) = some .checkboxYes ∧
      unticked.gallery.get? .checkboxYes = none ∧
      ¬Slot.symbols.Holds (unticked.performAll Panel.slate.bringUp.1
        [.all (.boot .initial), .layers (.only .symbols)]).2 none := by
  refine ⟨rfl, by decide, fun hblank => ?_⟩
  have hsized : unticked.gallery.Sized := Gallery.sized_without _
  have hready : Panel.slate.bringUp.1.ready = true :=
    (Panel.faithful_bringUp Bus.steady_default .zero).ready
  have hholds := holds_history hsized hready (.boot .initial) [.layers (.only .symbols)] .symbols
  have hhistory : Slot.symbols.history [.all (.boot .initial), .layers (.only .symbols)] =
      [.checkboxYes, .checkboxNo] := rfl
  -- the frame of the empty checkbox begins at the corner of the slot
  have hcorner : (Slot.symbols.ink
      ([Asset.checkboxYes, .checkboxNo].findSome? unticked.gallery.get?) 0 18).getD false =
        true := by
    decide +kernel
  have hin : Slot.symbols.area.Has 0 18 := by decide
  rw [hhistory] at hholds
  have hlit := (hholds 0 18 hin).trans hcorner
  rw [hblank 0 18 hin] at hlit
  cases hlit

end Slot

end StatusPanel
