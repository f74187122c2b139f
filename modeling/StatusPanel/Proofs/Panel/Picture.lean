import Mathlib.Data.List.Basic
import StatusPanel.Proofs.Panel.Memory

/-!
# The canvas as a picture

A canvas is a picture of pixels of their own, though eight of them share a byte and eight pages the
marks of what is to be sent. After any calls a pixel is as it was last written since the last clear,
and a page is to be sent if, since it was last sent, the canvas was cleared or a write changed one
of its pixels. A call that writes many pixels counts as one write for each of them, in its order.

## Main definitions

* `Since`: something was made, and nothing has ended it since
* `Canvas.Call`, `Canvas.after`: what is done with a canvas, from the empty one on
* `Canvas.Entry`, `Canvas.history`: the writes, clears and sendings of calls
* `Canvas.Shows`, `Canvas.Pending`: what a history says of a pixel, and of a page
* `Canvas.Follows`: a canvas against a history

## Main results

* `since_concat`: what one entry more makes or ends
* `Canvas.Follows.note`, `Canvas.follows_after`: an entry keeps the canvas, and so do all calls
* `Canvas.pixel_and_dirty_after`: every pixel and every page after any calls
-/

namespace StatusPanel

/-! ## Since -/

section Since

variable {α : Type} {makes : List α → α → Prop} {ends : α → Prop}

/-- Whether a history has an entry that makes something, and none behind it that ends it. What an
entry makes may depend on the history before it. -/
def Since (makes : List α → α → Prop) (ends : α → Prop) (history : List α) : Prop :=
  ∃ earlier e later, history = earlier ++ e :: later ∧ makes earlier e ∧ ∀ a ∈ later, ¬ends a

theorem not_since_nil : ¬Since makes ends [] := by
  rintro ⟨earlier, e, later, heq, -⟩
  exact List.append_ne_nil_of_right_ne_nil earlier (List.cons_ne_nil e later) heq.symm

theorem since_concat {history : List α} {e : α} :
    Since makes ends (history ++ [e]) ↔
      makes history e ∨ Since makes ends history ∧ ¬ends e := by
  constructor
  · rintro ⟨earlier, a, later, heq, hmakes, hlater⟩
    -- the entry that makes it is the last one, or it lies in the history before
    rcases List.eq_nil_or_concat' later with rfl | ⟨later, b, rfl⟩
    · obtain ⟨rfl, hlast⟩ := List.append_inj' heq rfl
      obtain rfl := List.singleton_inj.1 hlast
      exact Or.inl hmakes
    · rw [← List.cons_append, ← List.append_assoc] at heq
      obtain ⟨rfl, hlast⟩ := List.append_inj' heq rfl
      obtain rfl := List.singleton_inj.1 hlast
      rw [List.forall_mem_append, List.forall_mem_singleton] at hlater
      exact Or.inr ⟨⟨earlier, a, later, rfl, hmakes, hlater.1⟩, hlater.2⟩
  · rintro (hmakes | ⟨⟨earlier, a, later, rfl, hmakes, hlater⟩, hends⟩)
    · exact ⟨history, e, [], rfl, hmakes, fun _ h => absurd h List.not_mem_nil⟩
    · refine ⟨earlier, a, later ++ [e], by simp, hmakes, ?_⟩
      rw [List.forall_mem_append, List.forall_mem_singleton]
      exact ⟨hlater, hends⟩

end Since

namespace Canvas

/-! ## Calls and their history -/

/-- What is done with a canvas. -/
inductive Call
  /-- A pixel is set. -/
  | set (x y : Nat) (on : Bool)
  /-- Pixels of the plane are set, in order. -/
  | draw (dots : List Dot)
  /-- Every pixel is switched off. -/
  | clear
  /-- A page is noted as sent. -/
  | markClean (page : Fin 8)

/-- The canvas after a call. -/
def perform (c : Canvas) : Call → Canvas
  | .set x y on => c.setPixel x y on
  | .draw dots => c.drawDots dots
  | .clear => .blank
  | .markClean page => c.markClean page

/-- A new canvas after calls, in their order. -/
def after (calls : List Call) : Canvas := calls.foldl perform .blank

/-- An entry of a history. -/
inductive Entry
  /-- A pixel of the plane was written. -/
  | wrote (d : Dot)
  /-- Every pixel was switched off. -/
  | cleared
  /-- A page was sent. -/
  | sent (page : Fin 8)

/-- The entries of a call. -/
def Call.entries : Call → List Entry
  | .set x y on => [.wrote ⟨x, y, on⟩]
  | .draw dots => dots.map .wrote
  | .clear => [.cleared]
  | .markClean page => [.sent page]

/-- The entries of calls, in their order. -/
def history (calls : List Call) : List Entry := calls.flatMap Call.entries

/-! ## What a history says -/

variable {h : List Entry} {e : Entry} {x y : Nat} {on : Bool} {page : Fin 8}

/-- Whether an entry leaves nothing of what a pixel was. -/
def Replaces (x y : Nat) (e : Entry) : Prop := e = .cleared ∨ ∃ on, e = .wrote ⟨x, y, on⟩

/-- Whether the last write of a pixel since the last clear left it on, or off. -/
def LastWritten (h : List Entry) (x y : Nat) (on : Bool) : Prop :=
  Since (fun _ e => e = .wrote ⟨x, y, on⟩) (Replaces x y) h

/-- Whether a pixel is on, or off, after a history: as it was last written since the last clear, and
off if it was not. -/
def Shows (h : List Entry) (x y : Nat) (on : Bool) : Prop :=
  LastWritten h x y on ∨ on = false ∧ ∀ other, ¬LastWritten h x y other

/-- Whether an entry behind a history clears a page or changes a pixel of it. -/
def Touches (page : Fin 8) (h : List Entry) (e : Entry) : Prop :=
  e = .cleared ∨
    ∃ x y : Nat, ∃ on, e = .wrote ⟨x, y, on⟩ ∧ OnPanel x y ∧ y / 8 = page.val ∧ ¬Shows h x y on

/-- Whether a page is to be sent after a history: it never was, or it was touched since. -/
def Pending (h : List Entry) (page : Fin 8) : Prop :=
  .sent page ∉ h ∨ Since (Touches page) (· = .sent page) h

theorem lastWritten_concat :
    LastWritten (h ++ [e]) x y on ↔
      e = .wrote ⟨x, y, on⟩ ∨ LastWritten h x y on ∧ ¬Replaces x y e :=
  since_concat

theorem shows_nil : Shows [] x y on ↔ on = false where
  mp hshows := (hshows.resolve_left not_since_nil).1
  mpr hon := Or.inr ⟨hon, fun _ => not_since_nil⟩

theorem shows_concat_of_not_replaces (hkeeps : ¬Replaces x y e) :
    Shows (h ++ [e]) x y on ↔ Shows h x y on := by
  have hlast : ∀ on, LastWritten (h ++ [e]) x y on ↔ LastWritten h x y on := fun on =>
    lastWritten_concat.trans
      ⟨fun hor => hor.elim (fun he => absurd (Or.inr ⟨on, he⟩) hkeeps) And.left,
        fun hlast => Or.inr ⟨hlast, hkeeps⟩⟩
  simp only [Shows, hlast]

theorem shows_concat_wrote {on' : Bool} :
    Shows (h ++ [.wrote ⟨x, y, on'⟩]) x y on ↔ on' = on := by
  have hlast : ∀ on, LastWritten (h ++ [.wrote ⟨x, y, on'⟩]) x y on ↔ on' = on := by
    intro on
    have hreplaces : Replaces x y (.wrote ⟨x, y, on'⟩) := Or.inr ⟨on', rfl⟩
    rw [lastWritten_concat]
    simp [hreplaces]
  simp [Shows, hlast]

theorem shows_concat_cleared : Shows (h ++ [.cleared]) x y on ↔ on = false := by
  have hlast : ∀ on, ¬LastWritten (h ++ [.cleared]) x y on := by
    intro on hlast
    rcases lastWritten_concat.1 hlast with he | ⟨-, hkeeps⟩
    · cases he
    · exact hkeeps (Or.inl rfl)
  exact ⟨fun hshows => (hshows.resolve_left (hlast on)).1, fun hon => Or.inr ⟨hon, hlast⟩⟩

theorem pending_concat :
    Pending (h ++ [e]) page ↔ Touches page h e ∨ Pending h page ∧ e ≠ .sent page := by
  have hsent : Entry.sent page ∉ h ++ [e] ↔ .sent page ∉ h ∧ e ≠ .sent page := by
    rw [List.mem_append, List.mem_singleton, not_or, ne_comm]
  rw [Pending, Pending, hsent, since_concat]
  grind

/-! ## The canvas against its history -/

/-- The canvas after an entry. -/
def note (c : Canvas) : Entry → Canvas
  | .wrote d => c.drawDot d
  | .cleared => .blank
  | .sent page => c.markClean page

theorem perform_eq (c : Canvas) (call : Call) : c.perform call = call.entries.foldl note c := by
  cases call with
  | set x y on => exact (c.drawDot_natCast x y on).symm
  | draw dots => exact (List.foldl_map (f := Entry.wrote) (g := note)).symm
  | clear => rfl
  | markClean page => rfl

variable {c : Canvas}

/-- Whether a canvas agrees with a history, on every pixel of the panel and every page. -/
structure Follows (c : Canvas) (h : List Entry) : Prop where
  pixel_iff {x y : Nat} : OnPanel x y → ∀ on, c.pixel x y = on ↔ Shows h x y on
  isDirty_iff (page : Fin 8) : c.isDirty page = true ↔ Pending h page

theorem follows_blank : Follows .blank [] where
  pixel_iff _ on := by rw [pixel_blank, shows_nil, eq_comm]
  isDirty_iff page := iff_of_true (isDirty_blank _ page.isLt) (Or.inl List.not_mem_nil)

namespace Follows

theorem wrote (hc : c.Follows h) (d : Dot) : (c.drawDot d).Follows (h ++ [.wrote d]) where
  pixel_iff {x y} hxy on := by
    rw [pixel_drawDot c d hxy]
    split
    case isTrue hat =>
      obtain ⟨dx, dy, written⟩ := d
      obtain ⟨rfl, rfl⟩ := hat
      exact shows_concat_wrote.symm
    case isFalse hat =>
      have hkeeps : ¬Replaces x y (.wrote d) := by
        rintro (he | ⟨written, he⟩)
        · cases he
        · cases he
          exact hat ⟨rfl, rfl⟩
      rw [hc.pixel_iff hxy, shows_concat_of_not_replaces hkeeps]
  isDirty_iff page := by
    -- the dot makes the page one to be sent if it is not what the pixel shows
    rw [isDirty_drawDot_iff page.isLt, pending_concat, hc.isDirty_iff, or_comm]
    refine or_congr ⟨?_, ?_⟩ (and_iff_left (by simp)).symm
    · rintro ⟨x, y, hxy, hpage, ⟨hx, hy⟩, hne⟩
      obtain ⟨dx, dy, written⟩ := d
      obtain rfl : dx = x := hx
      obtain rfl : dy = y := hy
      exact Or.inr ⟨x, y, written, rfl, hxy, hpage, mt (hc.pixel_iff hxy written).2 hne⟩
    · rintro (he | ⟨x, y, written, he, hxy, hpage, hnot⟩)
      · cases he
      · cases he
        exact ⟨x, y, hxy, hpage, ⟨rfl, rfl⟩, mt (hc.pixel_iff hxy written).1 hnot⟩

theorem cleared (h : List Entry) : Follows .blank (h ++ [.cleared]) where
  pixel_iff _ on := by rw [pixel_blank, shows_concat_cleared, eq_comm]
  isDirty_iff page :=
    iff_of_true (isDirty_blank _ page.isLt) (pending_concat.2 (Or.inl (Or.inl rfl)))

theorem sent (hc : c.Follows h) (page : Fin 8) :
    (c.markClean page).Follows (h ++ [.sent page]) where
  pixel_iff {x y} hxy on := by
    have hkeeps : ¬Replaces x y (.sent page) := by
      rintro (he | ⟨_, he⟩) <;> cases he
    rw [pixel_markClean, hc.pixel_iff hxy, shows_concat_of_not_replaces hkeeps]
  isDirty_iff other := by
    have hnot : ¬Touches other h (.sent page) := by
      rintro (he | ⟨_, _, _, he, -⟩) <;> cases he
    rw [isDirty_markClean page.isLt other.isLt, Bool.and_eq_true, hc.isDirty_iff, pending_concat,
      or_iff_right hnot]
    refine and_congr_right fun _ => ?_
    rw [bne_iff_ne, ne_eq, ne_eq, Entry.sent.injEq, Fin.ext_iff, eq_comm]

/-- **An entry** keeps the canvas in agreement with the history. -/
theorem note (hc : c.Follows h) (e : Entry) : (c.note e).Follows (h ++ [e]) := by
  cases e with
  | wrote d => exact hc.wrote d
  | cleared => exact cleared h
  | sent page => exact hc.sent page

theorem entries (hc : c.Follows h) (es : List Entry) :
    (es.foldl Canvas.note c).Follows (h ++ es) := by
  -- Induction on the entries: the first one moves from them to the end of the history.
  induction es generalizing c h with
  | nil => rwa [List.append_nil]
  | cons e es ih =>
    rw [List.foldl_cons, List.append_cons]
    exact ih (hc.note e)

theorem calls (hc : c.Follows h) (calls : List Call) :
    (calls.foldl perform c).Follows (h ++ history calls) := by
  induction calls generalizing c h with
  | nil =>
    rw [history, List.flatMap_nil, List.append_nil]
    exact hc
  | cons call rest ih =>
    rw [List.foldl_cons, history, List.flatMap_cons, ← List.append_assoc, perform_eq]
    exact ih (hc.entries call.entries)

end Follows

/-- **All calls** since the canvas was new keep it in agreement with their history. -/
theorem follows_after (calls : List Call) : (after calls).Follows (history calls) :=
  follows_blank.calls calls

/-! ## Every pixel and every page -/

/-- A pixel is a bit of its byte in the page. -/
theorem exists_byte_of_page (c : Canvas) (hxy : OnPanel x y) (hpage : page.val = y / 8) :
    ∃ byte, (c.page page)[x]? = some byte ∧ Byte.bit byte (y % 8) = c.pixel x y := by
  have hx : x < (c.page page).length := (c.length_page page).symm ▸ hxy.1
  have hy : page.val * 8 + y % 8 = y := by omega
  refine ⟨_, List.getElem?_eq_getElem hx, ?_⟩
  rw [bit_getElem_page c page hx (Nat.mod_lt y (by decide)), hy]

/-- A write outside the panel changes nothing. -/
theorem drawDot_of_outside (c : Canvas) {d : Dot}
    (hout : d.x < 0 ∨ 128 ≤ d.x ∨ d.y < 0 ∨ 64 ≤ d.y) : c.drawDot d = c := by
  refine drawDot_of_not ?_
  rintro ⟨x, y, ⟨hx, hy⟩, hdx, hdy⟩
  simp only [panelWidth, panelHeight] at hx hy
  omega

/-- **The canvas is a boolean picture, and knows exactly what changed.** After any calls, a pixel of
the panel is as it was last written since the last clear, off if it was not, and is a bit of its
byte in its page. Pixels outside the panel are off, and writing them changes nothing. A page is to
be sent exactly if it was not sent yet, or the canvas was cleared or a write changed a pixel of the
page since it was sent last. -/
theorem pixel_and_dirty_after (calls : List Call) :
    let c := after calls
    (∀ x y, OnPanel x y →
      (∀ on, c.pixel x y = on ↔ Shows (history calls) x y on) ∧
        ∀ page : Fin 8, page.val = y / 8 →
          ∃ byte, (c.page page)[x]? = some byte ∧ Byte.bit byte (y % 8) = c.pixel x y) ∧
      (∀ x y, ¬OnPanel x y → c.pixel x y = false ∧ ∀ on, c.setPixel x y on = c) ∧
      (∀ d : Dot, d.x < 0 ∨ 128 ≤ d.x ∨ d.y < 0 ∨ 64 ≤ d.y → c.drawDot d = c) ∧
      ∀ page : Fin 8, c.isDirty page = true ↔ Pending (history calls) page := by
  intro c
  have hfollows : c.Follows (history calls) := follows_after calls
  refine ⟨fun x y hxy => ⟨hfollows.pixel_iff hxy, fun page hpage => ?_⟩, fun x y hxy => ?_,
    fun d hout => c.drawDot_of_outside hout, hfollows.isDirty_iff⟩
  · exact c.exists_byte_of_page hxy hpage
  · exact ⟨pixel_of_not hxy, fun on => setPixel_of_not on hxy⟩

end Canvas

end StatusPanel
