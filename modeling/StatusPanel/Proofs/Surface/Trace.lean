import StatusPanel.Proofs.Surface.Driven

/-!
# Traced surfaces

A surface with a trace of the calls that were made and how each was answered. The trace is read by
folds from the first call on, so each of them says what one more call does to it.

## Main definitions

* `Call`: a call of a surface
* `Traced`: a surface with its trace
* `Trace.lastFlush`, `Trace.panelOn`, `Trace.wantedOn`, `Trace.refusedDraws`: what a trace tells

## Main results

* `Traced.alike`: a traced surface answers as the surface does
* `Traced.panelOn_of_painted`, `Traced.wantedOn_of_painted`: paints do not switch the panel
* `Traced.refusedDraws_paint`: a paint has at most one stroke refused
-/

namespace StatusPanel

/-- A call of a surface. -/
inductive Call (ι : Type)
  | draw (stroke : Stroke ι)
  | flush
  | power (on : Bool)
  deriving DecidableEq

/-- The calls of a surface with their answers, in order. -/
abbrev Trace (ι : Type) := List (Call ι × Reply)

namespace Trace

variable {ι : Type}

/-- The answer to the last flush, if there was one. -/
def lastFlush (trace : Trace ι) : Option Reply :=
  trace.foldl (fun last c => match c with | (.flush, reply) => some reply | _ => last) none

/-- Whether the panel is on: it was before the first call, and follows the power commands that were
accepted. -/
def panelOn (trace : Trace ι) : Bool :=
  trace.foldl (fun on c => match c with | (.power wanted, .ok ()) => wanted | _ => on) true

/-- Whether the panel is wanted on: it was before the first call, and power commands say so whether
or not they were accepted. -/
def wantedOn (trace : Trace ι) : Bool :=
  trace.foldl (fun on c => match c with | (.power wanted, _) => wanted | _ => on) true

/-- The number of draws that were refused. -/
def refusedDraws (trace : Trace ι) : Nat :=
  trace.countP fun c => match c with | (.draw _, .error _) => true | _ => false

variable (trace : Trace ι)

@[simp] theorem lastFlush_draw (stroke : Stroke ι) (reply : Reply) :
    lastFlush (trace ++ [(.draw stroke, reply)]) = trace.lastFlush := by
  simp [lastFlush]

@[simp] theorem lastFlush_flush (reply : Reply) :
    lastFlush (trace ++ [(.flush, reply)]) = some reply := by
  simp [lastFlush]

@[simp] theorem lastFlush_power (on : Bool) (reply : Reply) :
    lastFlush (trace ++ [(.power on, reply)]) = trace.lastFlush := by
  simp [lastFlush]

@[simp] theorem panelOn_draw (stroke : Stroke ι) (reply : Reply) :
    panelOn (trace ++ [(.draw stroke, reply)]) = trace.panelOn := by
  simp [panelOn]

@[simp] theorem panelOn_flush (reply : Reply) :
    panelOn (trace ++ [(.flush, reply)]) = trace.panelOn := by
  simp [panelOn]

@[simp] theorem panelOn_power_ok (on : Bool) :
    panelOn (trace ++ [(.power on, .ok ())]) = on := by
  simp [panelOn]

@[simp] theorem wantedOn_draw (stroke : Stroke ι) (reply : Reply) :
    wantedOn (trace ++ [(.draw stroke, reply)]) = trace.wantedOn := by
  simp [wantedOn]

@[simp] theorem wantedOn_flush (reply : Reply) :
    wantedOn (trace ++ [(.flush, reply)]) = trace.wantedOn := by
  simp [wantedOn]

@[simp] theorem wantedOn_power (on : Bool) (reply : Reply) :
    wantedOn (trace ++ [(.power on, reply)]) = on := by
  simp [wantedOn]

theorem refusedDraws_draw (stroke : Stroke ι) (reply : Reply) :
    refusedDraws (trace ++ [(.draw stroke, reply)]) =
      trace.refusedDraws + if reply = .ok () then 0 else 1 := by
  cases reply <;> simp [refusedDraws]

@[simp] theorem refusedDraws_flush (reply : Reply) :
    refusedDraws (trace ++ [(.flush, reply)]) = trace.refusedDraws := by
  simp [refusedDraws]

end Trace

/-- A surface with the trace of its calls. -/
structure Traced (S ι : Type) where
  surface : S
  trace : Trace ι := []

namespace Traced

variable {S ι : Type} [Surface S ι]

instance : Surface (Traced S ι) ι where
  draw t stroke :=
    let (surface, reply) := Surface.draw t.surface stroke
    (⟨surface, t.trace ++ [(.draw stroke, reply)]⟩, reply)
  flush t :=
    let (surface, reply) := Surface.flush t.surface
    (⟨surface, t.trace ++ [(.flush, reply)]⟩, reply)
  power t on :=
    let (surface, reply) := Surface.power t.surface on
    (⟨surface, t.trace ++ [(.power on, reply)]⟩, reply)

/-- A surface before its first call. -/
def fresh (surface : S) : Traced S ι := ⟨surface, []⟩

theorem draw_eq (t : Traced S ι) (stroke : Stroke ι) :
    Surface.draw t stroke =
      (⟨(Surface.draw t.surface stroke).1,
        t.trace ++ [(.draw stroke, (Surface.draw t.surface stroke).2)]⟩,
        (Surface.draw t.surface stroke).2) := rfl

theorem flush_eq (t : Traced S ι) :
    Surface.flush t =
      (⟨(Surface.flush t.surface).1, t.trace ++ [(.flush, (Surface.flush t.surface).2)]⟩,
        (Surface.flush t.surface).2) := rfl

theorem power_eq (t : Traced S ι) (on : Bool) :
    Surface.power t on =
      (⟨(Surface.power t.surface on).1,
        t.trace ++ [(.power on, (Surface.power t.surface on).2)]⟩,
        (Surface.power t.surface on).2) := rfl

/-- A traced surface answers as the surface does. -/
theorem alike : Surface.Alike (surface : Traced S ι → S) where
  draw _ _ := rfl
  flush _ := rfl
  power _ _ := rfl

variable {before after : Traced S ι}

theorem panelOn_of_painted (h : Painted before after) :
    after.trace.panelOn = before.trace.panelOn := by
  refine h.view_eq (fun t => t.trace.panelOn) (fun t stroke => ?_) fun t => ?_
  · rw [draw_eq, Trace.panelOn_draw]
  · rw [flush_eq, Trace.panelOn_flush]

theorem wantedOn_of_painted (h : Painted before after) :
    after.trace.wantedOn = before.trace.wantedOn := by
  refine h.view_eq (fun t => t.trace.wantedOn) (fun t stroke => ?_) fun t => ?_
  · rw [draw_eq, Trace.wantedOn_draw]
  · rw [flush_eq, Trace.wantedOn_flush]

/-- At most one of several strokes is refused: the one that ends them. -/
theorem refusedDraws_drawAll (t : Traced S ι) (strokes : List (Stroke ι)) :
    (drawAll t strokes).1.trace.refusedDraws =
      t.trace.refusedDraws + if (drawAll t strokes).2 = .ok () then 0 else 1 := by
  induction strokes generalizing t with
  | nil => simp
  | cons stroke rest ih =>
    have hfirst : (Surface.draw t stroke).1.trace.refusedDraws =
        t.trace.refusedDraws + if (Surface.draw t stroke).2 = .ok () then 0 else 1 := by
      rw [draw_eq, Trace.refusedDraws_draw]
    rw [drawAll_cons]
    generalize Surface.draw t stroke = r at hfirst ⊢
    obtain ⟨next, _ | _⟩ := r
    · -- the refused stroke is the last one
      exact hfirst
    · rw [andThen_ok, ih, hfirst, if_pos rfl, Nat.add_zero]

theorem refusedDraws_paint (t : Traced S ι) (strokes : List (Stroke ι)) :
    (paint t strokes).1.trace.refusedDraws =
      t.trace.refusedDraws + if (drawAll t strokes).2 = .ok () then 0 else 1 := by
  rw [paint, flush_eq, Trace.refusedDraws_flush, refusedDraws_drawAll]

end Traced

end StatusPanel
