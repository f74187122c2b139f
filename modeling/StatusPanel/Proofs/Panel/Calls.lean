import StatusPanel.Panel.Basic

/-!
# What the calls of a panel keep

Draws change the picture and nothing else, and only on a panel that was configured. Power commands
and flushes leave the picture alone, and no call changes whether the panel was configured.

## Main results

* `Panel.draw_cases`: a draw changes the picture, or is refused and changes nothing
* `Panel.canvas_power`, `Panel.pixel_canvas_flush`: the other calls leave the picture alone
* `Panel.ready_draw`, `Panel.ready_power`, `Panel.ready_flush`: every call leaves a panel that was
  configured so
-/

namespace StatusPanel.Panel

theorem whenReady_of_ready {p : Panel} (hr : p.ready = true) (act : Panel → Panel × Reply) :
    p.whenReady act = act p := by
  rw [whenReady, if_pos hr]

/-! ## Draws -/

/-- A panel that is ready draws the strokes that lie on it. -/
theorem draw_of_fits {p : Panel} (hr : p.ready = true) {s : Stroke Bitmap} (hs : s.fits = true) :
    p.draw s = ({ p with canvas := p.canvas.drawDots s.dots }, .ok ()) := by
  rw [draw, whenReady_of_ready hr, if_pos hs]

theorem draw_of_not_fits {p : Panel} (hr : p.ready = true) {s : Stroke Bitmap}
    (hs : ¬s.fits = true) : p.draw s = (p, .error .invalidCoordinates) := by
  rw [draw, whenReady_of_ready hr, if_neg hs]

/-- A panel draws a stroke or leaves the picture alone, as it answers. -/
theorem draw_cases (p : Panel) (s : Stroke Bitmap) :
    p.draw s = ({ p with canvas := p.canvas.drawDots s.dots }, .ok ()) ∨
      ∃ fault, p.draw s = (p, .error fault) := by
  by_cases hr : p.ready = true
  · by_cases hs : s.fits = true
    · exact Or.inl (draw_of_fits hr hs)
    · exact Or.inr ⟨_, draw_of_not_fits hr hs⟩
  · exact Or.inr ⟨_, draw_of_not_ready (Bool.eq_false_iff.2 hr) s⟩

/-! ## The picture -/

@[simp] theorem canvas_sendPower (p : Panel) (on : Bool) :
    (p.sendPower on).1.canvas = p.canvas := by
  unfold sendPower
  rw [view_andThen Panel.canvas _ fun _ => rfl, canvas_send]

theorem canvas_power (p : Panel) (on : Bool) : (p.power on).1.canvas = p.canvas := by
  unfold power whenReady
  split
  · dsimp only
    split
    · rfl
    · exact canvas_sendPower p on
  · rfl

theorem pixel_flushPage (p : Panel) (page : Fin 8) (x y : Nat) :
    (p.flushPage page).1.canvas.pixel x y = p.canvas.pixel x y := by
  unfold flushPage
  split
  · have hc := canvas_sendAll p (pageWrites page (p.canvas.page page))
    generalize p.sendAll (pageWrites page (p.canvas.page page)) = r at hc ⊢
    obtain ⟨q, _ | _⟩ := r
    · exact congrArg (fun c => c.pixel x y) hc
    · rw [andThen_ok, Canvas.pixel_markClean]
      exact congrArg (fun c => c.pixel x y) hc
  · rfl

theorem pixel_flushPages (p : Panel) (pages : List (Fin 8)) (x y : Nat) :
    (p.flushPages pages).1.canvas.pixel x y = p.canvas.pixel x y := by
  induction pages generalizing p with
  | nil => rfl
  | cons page rest ih =>
    rw [flushPages, view_andThen (fun q : Panel => q.canvas.pixel x y) _ ih, pixel_flushPage]

theorem pixel_canvas_flush (p : Panel) (x y : Nat) :
    p.flush.1.canvas.pixel x y = p.canvas.pixel x y := by
  unfold flush whenReady
  split
  · exact pixel_flushPages p _ x y
  · rfl

/-! ## Whether the panel was configured -/

@[simp] theorem ready_sendAll (p : Panel) (xs : List (List UInt8)) :
    (p.sendAll xs).1.ready = p.ready := by
  induction xs generalizing p with
  | nil => rfl
  | cons x xs ih => rw [sendAll, view_andThen ready _ ih, ready_send]

@[simp] theorem ready_flushPage (p : Panel) (page : Fin 8) :
    (p.flushPage page).1.ready = p.ready := by
  unfold flushPage
  split
  · have h := ready_sendAll p (pageWrites page (p.canvas.page page))
    generalize p.sendAll (pageWrites page (p.canvas.page page)) = r at h ⊢
    obtain ⟨q, _ | _⟩ := r <;> exact h
  · rfl

@[simp] theorem ready_flushPages (p : Panel) (pages : List (Fin 8)) :
    (p.flushPages pages).1.ready = p.ready := by
  induction pages generalizing p with
  | nil => rfl
  | cons page rest ih => rw [flushPages, view_andThen ready _ ih, ready_flushPage]

theorem ready_flush (p : Panel) : p.flush.1.ready = p.ready := by
  unfold flush whenReady
  split
  · exact ready_flushPages p _
  · rfl

theorem ready_draw (p : Panel) (s : Stroke Bitmap) : (p.draw s).1.ready = p.ready := by
  rcases p.draw_cases s with h | ⟨fault, h⟩ <;> rw [h]

@[simp] theorem ready_sendPower (p : Panel) (on : Bool) :
    (p.sendPower on).1.ready = p.ready := by
  unfold sendPower
  rw [view_andThen ready _ fun _ => rfl, ready_send]

theorem ready_power (p : Panel) (on : Bool) : (p.power on).1.ready = p.ready := by
  unfold power whenReady
  split
  · dsimp only
    split
    · rfl
    · exact ready_sendPower p on
  · rfl

theorem ready_drawAll (p : Panel) (strokes : List (Stroke Bitmap)) :
    (drawAll p strokes).1.ready = p.ready := by
  induction strokes generalizing p with
  | nil => rfl
  | cons s rest ih => rw [drawAll_cons, view_andThen ready _ ih]; exact ready_draw p s

theorem ready_paint (p : Panel) (strokes : List (Stroke Bitmap)) :
    (paint p strokes).1.ready = p.ready :=
  (ready_flush _).trans (ready_drawAll p strokes)

/-- A panel that is ready accepts strokes that lie on it. -/
theorem drawAll_of_fits {p : Panel} (hr : p.ready = true) {strokes : List (Stroke Bitmap)}
    (hf : ∀ s ∈ strokes, s.fits = true) : (drawAll p strokes).2 = .ok () := by
  induction strokes generalizing p with
  | nil => rfl
  | cons s rest ih =>
    have hd : Surface.draw p s = ({ p with canvas := p.canvas.drawDots s.dots }, .ok ()) :=
      draw_of_fits hr (hf s List.mem_cons_self)
    rw [drawAll_cons, hd, andThen_ok]
    exact ih hr fun t ht => hf t (List.mem_cons_of_mem _ ht)

end StatusPanel.Panel
