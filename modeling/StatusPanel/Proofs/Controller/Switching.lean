import StatusPanel.Proofs.Controller.PowerCommands
import StatusPanel.Proofs.Surface.Faulty

/-!
# Switching the panel

Until a shutdown the controller takes the panel to be as it was last asked to be, whether or not the
surface did so. An activity asks again only for a panel that is taken to be off. So a panel that
refused to go on stays off, however often the user comes back, until it is switched off once more.

## Main definitions

* `Controller.TakenAsWanted`: the panel is taken to be as it was last asked to be

## Main results

* `Controller.takenAsWanted_run`: so it is in every run
* `Controller.panelOn_handle_iff`: when an activity leaves the panel on
-/

namespace StatusPanel

namespace Controller

variable {S ι : Type} [Surface S ι] {capacity : Nat}

/-- Until a shutdown, the panel is taken to be as it was last asked to be. -/
def TakenAsWanted (c : Controller (Traced S ι) ι) : Prop :=
  c.shutDown = false → c.power.powered = c.surface.trace.wantedOn

/-- In every run the panel is taken to be as it was last asked to be. -/
theorem takenAsWanted_run (surface : S) (settings : Settings) (born : UInt32)
    (requests : List (Request ι capacity)) :
    TakenAsWanted (run (start (Traced.fresh surface) settings born) requests) :=
  fun _ => powered_run surface settings born requests

/-- **An activity and the panel.** In every run that did not shut down, an event that is the work of
the user, on a surface that would go on now, leaves the panel on exactly if it was on before or was
last asked to be off: a panel that is off and was last asked to be on, and refused, stays off. -/
theorem panelOn_handle_iff (surface : S) (settings : Settings) (born : UInt32)
    (requests : List (Request ι capacity)) {c : Controller (Traced S ι) ι}
    (hc : c = run (start (Traced.fresh surface) settings born) requests)
    (hlive : c.shutDown = false) (haccepts : (Surface.power c.surface true).2 = .ok ())
    (agenda : Agenda capacity) {event : Event} (hevent : event.isActivity = true)
    (status : Status) (now : UInt32) :
    (c.handle agenda event status now).1.surface.trace.panelOn = true ↔
      c.surface.trace.panelOn = true ∨ c.surface.trace.wantedOn = false := by
  have hwanted : c.power.powered = c.surface.trace.wantedOn := by
    subst hc
    exact takenAsWanted_run surface settings born requests hlive
  rw [fst_handle_of_isActivity hlive agenda hevent status,
    Traced.panelOn_of_painted (painted_showParts _ _ _), ← hwanted]
  cases hp : c.power.powered with
  | true =>
    -- the panel is taken to be on, so nothing is asked of it
    have hstay : (c.power.activity now).2 = .stay := by simp [Power.activity, Power.wake, hp]
    rw [stepPower, hstay]
    simp [switch]
  | false =>
    -- the panel is asked to go on, and does
    have hgo : (c.power.activity now).2 = .powerOn := by simp [Power.activity, Power.wake, hp]
    have hon : (Surface.power c.surface true).1.trace.panelOn = true := by
      rw [Traced.power_eq] at haccepts ⊢
      rw [haccepts, Trace.panelOn_power_ok]
    rw [stepPower, hgo]
    simp [switch, hon]

/-- A surface that refuses the call after 39 others: the first one after a boot and a suspend. -/
def refusesReturn : Faulty Recorder := { surface := {}, refuses := (· == 39) }

/-- The host suspends right after the boot, and a key is pressed. -/
def firstReturn : List (Request Asset 4) :=
  [.boot some .empty (.boot .initial) 0, .input .suspend,
    .input (.event .empty (.key true) (.boot .initial) 10)]

/-- The controller of that surface after these requests and others. -/
def afterReturn (others : List (Request Asset 4)) :
    Controller (Traced (Faulty Recorder) Asset) Asset :=
  run (start (Traced.fresh refusesReturn) .standard 0) (firstReturn ++ others)

/-- A panel that refused to return goes on at the next key if the host suspended in between. -/
theorem panelOn_after_second_suspend :
    ((afterReturn [.input .suspend]).handle (.empty : Agenda 4) (.key true) (.boot .initial)
      20).1.surface.trace.panelOn = true := by
  have hkey : (Event.key true).isActivity = true := rfl
  refine (panelOn_handle_iff refusesReturn .standard 0 (firstReturn ++ [.input .suspend]) rfl
    ?_ ?_ .empty hkey (.boot .initial) 20).2 (Or.inr ?_)
  all_goals decide +kernel

/-- A panel that refused to return stays off at the next key, though the surface would go on. -/
theorem panel_off_after_refused_return :
    (afterReturn []).shutDown = false ∧
      (Surface.power (afterReturn []).surface true).2 = .ok () ∧
      (Event.key true).isActivity = true ∧
      ((afterReturn []).handle (.empty : Agenda 4) (.key true) (.boot .initial)
        20).1.surface.trace.panelOn = false := by
  decide +kernel

end Controller

end StatusPanel
