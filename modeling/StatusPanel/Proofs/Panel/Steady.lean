import StatusPanel.Proofs.Panel.Memory
import StatusPanel.Proofs.Surface.Driven

/-!
# A panel on a steady bus

A bus that never refuses a write. A panel on it accepts every flush and every power command, so
after each paint its memory holds the picture.

## Main definitions

* `Bus.Steady`: no write is refused
* `Panel.Faithful`: a panel on a steady bus whose memory holds the picture

## Main results

* `Panel.Faithful.of_driven`: paints and power commands keep the memory up to date
* `Panel.faithful_bringUp`: the bring-up makes it so, whatever the memory held before
-/

namespace StatusPanel

/-- No write is refused. -/
def Bus.Steady (bus : Bus) : Prop := ∀ n, bus.accepts n = true

theorem Bus.steady_default : Bus.Steady {} := fun _ => rfl

namespace Panel

variable {p : Panel} {before : Memory}

/-! ## Accepted calls -/

theorem send_of_steady (h : p.bus.Steady) (bytes : List UInt8) :
    (p.send bytes).2 = .ok () ∧ (p.send bytes).1.bus.Steady := by
  unfold send Bus.write
  rw [if_pos (h p.bus.attempts)]
  exact ⟨rfl, h⟩

theorem sendAll_of_steady (h : p.bus.Steady) (writes : List (List UInt8)) :
    (p.sendAll writes).2 = .ok () ∧ (p.sendAll writes).1.bus.Steady := by
  induction writes generalizing p with
  | nil => exact ⟨rfl, h⟩
  | cons bytes rest ih =>
    have hsend := send_of_steady h bytes
    rw [sendAll]
    generalize p.send bytes = sent at hsend ⊢
    obtain ⟨q, _ | _⟩ := sent
    · cases hsend.1
    · exact ih hsend.2

theorem flushPage_of_steady (h : p.bus.Steady) (page : Fin 8) :
    (p.flushPage page).2 = .ok () ∧ (p.flushPage page).1.bus.Steady := by
  unfold flushPage
  split
  · have hsend := sendAll_of_steady h (pageWrites page (p.canvas.page page))
    generalize p.sendAll _ = sent at hsend ⊢
    obtain ⟨q, _ | _⟩ := sent
    · cases hsend.1
    · exact ⟨rfl, hsend.2⟩
  · exact ⟨rfl, h⟩

theorem flushPages_of_steady (h : p.bus.Steady) (pages : List (Fin 8)) :
    (p.flushPages pages).2 = .ok () ∧ (p.flushPages pages).1.bus.Steady := by
  induction pages generalizing p with
  | nil => exact ⟨rfl, h⟩
  | cons page rest ih =>
    have hpage := flushPage_of_steady h page
    rw [flushPages]
    generalize p.flushPage page = sent at hpage ⊢
    obtain ⟨q, _ | _⟩ := sent
    · cases hpage.1
    · exact ih hpage.2

theorem flush_of_steady (h : p.bus.Steady) (hr : p.ready = true) :
    p.flush.2 = .ok () ∧ p.flush.1.bus.Steady := by
  rw [flush, whenReady_of_ready hr]
  exact flushPages_of_steady h _

theorem sendPower_of_steady (h : p.bus.Steady) (on : Bool) :
    (p.sendPower on).2 = .ok () ∧ (p.sendPower on).1.bus.Steady := by
  have hsend := send_of_steady h (command (if on then displayOn else displayOff))
  rw [sendPower]
  generalize p.send _ = sent at hsend ⊢
  obtain ⟨q, _ | _⟩ := sent
  · cases hsend.1
  · exact ⟨rfl, hsend.2⟩

theorem steady_power (h : p.bus.Steady) (on : Bool) : (p.power on).1.bus.Steady := by
  unfold power whenReady
  split
  · dsimp only
    split
    · exact h
    · exact (sendPower_of_steady h on).2
  · exact h

theorem steady_drawAll (h : p.bus.Steady) (strokes : List (Stroke Bitmap)) :
    (drawAll p strokes).1.bus.Steady := by
  have hbus : (drawAll p strokes).1.bus = p.bus := by
    refine view_drawAll bus (fun q stroke => ?_) p strokes
    change (q.draw stroke).1.bus = q.bus
    rcases q.draw_cases stroke with hd | ⟨fault, hd⟩ <;> rw [hd]
  rwa [hbus]

/-! ## The memory holds the picture -/

/-- A panel that was configured, on a steady bus, whose memory holds its picture. -/
structure Faithful (p : Panel) (before : Memory) : Prop where
  ready : p.ready = true
  steady : p.bus.Steady
  mirrors : p.Mirrors before
  clean : ∀ page < 8, p.canvas.isDirty page = false

namespace Faithful

theorem pixel_memory (h : Faithful p before) {x y : Nat} (hxy : OnPanel x y) :
    (p.memory before).pixel x y = p.canvas.pixel x y :=
  h.mirrors x y hxy (h.clean _ (Nat.div_lt_of_lt_mul hxy.2))

theorem paint (h : Faithful p before) (strokes : List (Stroke Bitmap)) :
    Faithful (StatusPanel.paint p strokes).1 before := by
  have hready : (drawAll p strokes).1.ready = true := (ready_drawAll p strokes).trans h.ready
  have hflush := flush_of_steady (steady_drawAll h.steady strokes) hready
  exact ⟨(ready_flush _).trans hready, hflush.2, h.mirrors.paint strokes,
    fun _ hpage => isDirty_flush_of_ok hflush.1 hpage⟩

theorem power (h : Faithful p before) (on : Bool) : Faithful (Surface.power p on).1 before := by
  refine ⟨(p.ready_power on).trans h.ready, steady_power h.steady on, h.mirrors.power on, ?_⟩
  have hcanvas : (Surface.power p on).1.canvas = p.canvas := p.canvas_power on
  rw [hcanvas]
  exact h.clean

theorem of_driven {q : Panel} (hd : Driven p q) (h : Faithful p before) : Faithful q before :=
  hd.holds (P := fun p => Faithful p before) (fun _ strokes hp => hp.paint strokes)
    (fun _ on hp => hp.power on) h

end Faithful

/-- The bring-up on a steady bus is accepted, and leaves no page to be sent. -/
theorem bringUp_of_steady (h : p.bus.Steady) :
    p.bringUp.2 = .ok () ∧ p.bringUp.1.bus.Steady ∧
      ∀ page < 8, p.bringUp.1.canvas.isDirty page = false := by
  -- Three calls one after another: the configuration, the flush and the power command.
  have hconfigured := sendAll_of_steady h (configuration.map command)
  unfold bringUp
  generalize p.sendAll (configuration.map command) = sent at hconfigured ⊢
  obtain ⟨q, _ | _⟩ := sent
  · cases hconfigured.1
  · rw [andThen_ok]
    let cleared : Panel := { q with ready := true, canvas := .blank }
    have hflush : cleared.flush.2 = .ok () ∧ cleared.flush.1.bus.Steady :=
      flush_of_steady hconfigured.2 rfl
    have hclean : ∀ page < 8, cleared.flush.1.canvas.isDirty page = false :=
      fun _ hpage => isDirty_flush_of_ok hflush.1 hpage
    change (andThen cleared.flush _).2 = _ ∧ (andThen cleared.flush _).1.bus.Steady ∧
      ∀ page < 8, (andThen cleared.flush _).1.canvas.isDirty page = false
    generalize cleared.flush = flushed at hflush hclean ⊢
    obtain ⟨r, _ | _⟩ := flushed
    · cases hflush.1
    · have hpower := sendPower_of_steady hflush.2 true
      rw [andThen_ok, canvas_sendPower]
      exact ⟨hpower.1, hpower.2, hclean⟩

theorem faithful_bringUp (h : p.bus.Steady) (before : Memory) : Faithful p.bringUp.1 before := by
  obtain ⟨hok, hsteady, hclean⟩ := bringUp_of_steady h
  obtain ⟨hready, hmirrors⟩ := bringUp_of_ok hok before
  exact ⟨hready, hsteady, hmirrors, hclean⟩

end Panel

end StatusPanel
