import Mathlib.Data.List.Induction
import StatusPanel.Proofs.Controller.Run
import StatusPanel.Surface.Recorder

/-!
# Power commands

The controller sends a power command when its power state changes, and draws and flushes while that
state is on. So a panel is never drawn on that was last asked to be off, and never asked to be what
it was last asked to be; only the shutdown asks without looking.

## Main definitions

* `Switch.result`: whether the panel is to be on after a switch
* `Call.Apt`: whether a call suits what was last asked of the panel
* `Traced.Apt`: a trace to which calls were added that were apt when they were made
* `Controller.Plan.Apt`: what every plan but the shutdown observes

## Main results

* `Controller.plan_cases`, `Controller.apt_execute`: plans are apt, and so are the calls they make
* `Controller.serve_cases`: the calls of a request
* `Controller.apt_run`: the calls of a run
-/

namespace StatusPanel

variable {S ι : Type} [Surface S ι] {capacity : Nat}

/-! ## Apt calls -/

/-- Whether a call suits a panel that was last asked to be on or off: draws and flushes want it on,
and a power command asks for a change. -/
def Call.Apt : Call ι → Bool → Prop
  | .power wanted, on => wanted ≠ on
  | .draw _, on | .flush, on => on = true

/-- An element of a list with one more is in the list, or is that one. -/
theorem split_append_singleton {α : Type} {as xs ys : List α} {a b : α}
    (h : as ++ [a] = xs ++ b :: ys) : (∃ zs, as = xs ++ b :: zs) ∨ as = xs ∧ a = b := by
  rcases List.eq_nil_or_concat ys with rfl | ⟨zs, last, rfl⟩
  · obtain ⟨hinit, hlast⟩ := List.append_inj' h rfl
    exact Or.inr ⟨hinit, List.singleton_inj.1 hlast⟩
  · rw [List.concat_eq_append, ← List.cons_append, ← List.append_assoc] at h
    exact Or.inl ⟨zs, (List.append_inj' h rfl).1⟩

/-- A trace to which calls were added, each of them apt when it was made. -/
inductive Trace.Apt (before : Trace ι) : Trace ι → Prop
  | refl : Apt before before
  | call {trace : Trace ι} (h : Apt before trace) (call : Call ι) (reply : Reply)
      (hcall : call.Apt trace.wantedOn) : Apt before (trace ++ [(call, reply)])

namespace Trace.Apt

variable {before between after : Trace ι}

theorem trans (h : Apt before between) (k : Apt between after) : Apt before after := by
  induction k with
  | refl => exact h
  | call _ call reply hcall ih => exact ih.call call reply hcall

/-- Every call of such a trace was there before, or was apt. -/
theorem apt_of_split (h : Apt before after) {xs ys : Trace ι} {c : Call ι × Reply}
    (hsplit : after = xs ++ c :: ys) :
    (∃ zs, before = xs ++ c :: zs) ∨ c.1.Apt xs.wantedOn := by
  -- Induction on the calls that were added: the last one is this one, or comes after it.
  induction h generalizing ys with
  | refl => exact Or.inl ⟨ys, hsplit⟩
  | call _ call reply hcall ih =>
    obtain ⟨zs, hbefore⟩ | ⟨rfl, rfl⟩ := split_append_singleton hsplit
    · exact ih hbefore
    · exact Or.inr hcall

end Trace.Apt

namespace Traced

variable {before after : Traced S ι}

theorem apt_drawAll (t : Traced S ι) (h : t.trace.wantedOn = true) (strokes : List (Stroke ι)) :
    Trace.Apt t.trace (drawAll t strokes).1.trace := by
  induction strokes generalizing t with
  | nil => exact .refl
  | cons stroke rest ih =>
    have hfirst : Trace.Apt t.trace (Surface.draw t stroke).1.trace :=
      Trace.Apt.refl.call (.draw stroke) _ h
    have hon : (Surface.draw t stroke).1.trace.wantedOn = true := by
      rw [draw_eq, Trace.wantedOn_draw, h]
    rw [drawAll_cons]
    generalize Surface.draw t stroke = r at hfirst hon ⊢
    obtain ⟨next, _ | _⟩ := r
    · exact hfirst
    · exact hfirst.trans (ih next hon)

/-- The calls of paints are apt while the panel is wanted on, which they leave it. -/
theorem apt_of_painted (h : Painted before after) (hon : before.trace.wantedOn = true) :
    Trace.Apt before.trace after.trace := by
  induction h with
  | refl => exact .refl
  | @paint surface hpainted strokes ih =>
    have hsurface : surface.trace.wantedOn = true := (wantedOn_of_painted hpainted).trans hon
    have hdrawn : (drawAll surface strokes).1.trace.wantedOn = true := by
      refine (view_drawAll (fun t : Traced S ι => t.trace.wantedOn) (fun t stroke => ?_)
        surface strokes).trans hsurface
      rw [draw_eq, Trace.wantedOn_draw]
    exact (ih.trans (apt_drawAll surface hsurface strokes)).call .flush _ hdrawn

end Traced

/-! ## Power steps -/

namespace Switch

/-- Whether the panel is to be on after a switch. -/
def result : Switch → Bool → Bool
  | .stay, on => on
  | .powerOn, _ => true
  | .powerOff, _ => false

/-- A switch that asks for something asks for a change. -/
def Changes (s : Switch) (on : Bool) : Prop := s ≠ .stay → s.result on ≠ on

end Switch

namespace Power

/-- A power step that says how it switches, and switches nothing to what it is. -/
structure Follows (p : Power) (step : Power × Switch) : Prop where
  result : step.1.powered = step.2.result p.powered
  changes : step.2.Changes p.powered

theorem follows_stay (p : Power) : p.Follows (p, .stay) := ⟨rfl, fun h => absurd rfl h⟩

theorem follows_wake (p : Power) : p.Follows p.wake := by
  unfold wake
  split
  · exact p.follows_stay
  case isFalse hoff => exact ⟨rfl, fun _ hon => hoff hon.symm⟩

theorem follows_suspend (p : Power) : p.Follows p.suspend := by
  unfold suspend
  split
  case isTrue hon => exact ⟨rfl, fun _ hoff => Bool.false_ne_true (hoff.trans hon)⟩
  · exact p.follows_stay

theorem follows_activity (p : Power) (now : UInt32) : p.Follows (p.activity now) :=
  have h := follows_wake { p with lastActivity := now }
  ⟨h.result, h.changes⟩

theorem follows_idleCheck (p : Power) (now : UInt32) : p.Follows (p.idleCheck now) := by
  unfold idleCheck
  split
  · exact p.follows_suspend
  · exact p.follows_stay

end Power

namespace Controller

/-! ## Plans -/

/-- A plan whose power step is followed, which asks for changes only and redraws parts only while
the panel is taken to be on. -/
structure Plan.Apt (plan : Plan) (power : Power) : Prop where
  follows : power.Follows plan.step
  draws : plan.parts ≠ [] → plan.step.1.powered = true

theorem Plan.apt_power {power : Power} {step : Power × Switch} (h : power.Follows step)
    (status : Status) : (Plan.power step status).Apt power := ⟨h, fun hne => absurd rfl hne⟩

omit [Surface S ι] in
/-- Every plan is apt, except that the shutdown does not look whether the panel is on. -/
theorem plan_cases (c : Controller S ι) (shown : Status) (input : Input capacity) :
    (c.plan shown input).Apt c.power ∨ c.plan shown input = .shutdown c.power shown := by
  have hactivity (now : UInt32) := c.power.follows_activity now
  cases input with
  | event agenda event status now =>
    cases event with
    | suspend => exact Or.inl (Plan.apt_power c.power.follows_suspend _)
    | wake => exact Or.inl (Plan.apt_power c.power.follows_wake _)
    | shutdown => exact Or.inr rfl
    | _ => exact Or.inl ⟨hactivity now, fun _ => c.power.powered_activity now⟩
  | activity now => exact Or.inl (Plan.apt_power (hactivity now) _)
  | idleCheck now => exact Or.inl (Plan.apt_power (c.power.follows_idleCheck now) _)
  | barRedraw status =>
    refine Or.inl ⟨c.power.follows_stay, fun hparts => ?_⟩
    -- a panel that is off has no parts to be redrawn
    by_contra hoff
    exact hparts (if_neg hoff)
  | suspend => exact Or.inl (Plan.apt_power c.power.follows_suspend _)
  | wake => exact Or.inl (Plan.apt_power c.power.follows_wake _)
  | shutdown => exact Or.inr rfl

section

variable {c : Controller (Traced S ι) ι} {plan : Plan}

theorem wantedOn_switch (c : Controller (Traced S ι) ι) (s : Switch) :
    (c.switch s).surface.trace.wantedOn = s.result c.surface.trace.wantedOn := by
  cases s with
  | stay => rfl
  | powerOn => exact Trace.wantedOn_power _ true _
  | powerOff => exact Trace.wantedOn_power _ false _

theorem apt_switch {s : Switch} (h : s.Changes c.surface.trace.wantedOn) :
    Trace.Apt c.surface.trace (c.switch s).surface.trace := by
  cases s with
  | stay => exact .refl
  | powerOn => exact Trace.Apt.refl.call (.power true) _ (h nofun)
  | powerOff => exact Trace.Apt.refl.call (.power false) _ (h nofun)

theorem powered_execute (h : c.power.powered = c.surface.trace.wantedOn)
    (hplan : plan.step.1.powered = plan.step.2.result c.power.powered) :
    (c.execute plan).power.powered = (c.execute plan).surface.trace.wantedOn := by
  have hswitch := wantedOn_switch { c with shutDown := plan.ends, power := plan.step.1 } plan.step.2
  rw [execute, Traced.wantedOn_of_painted (painted_showParts _ _ _), power_showParts,
    power_stepPower, hplan, h]
  exact hswitch.symm

theorem apt_execute (h : c.power.powered = c.surface.trace.wantedOn)
    (hplan : plan.Apt c.power) :
    Trace.Apt c.surface.trace (c.execute plan).surface.trace := by
  -- first the switch, then the redraw, which finds the panel wanted on
  let switched := { c with shutDown := plan.ends }.stepPower plan.step
  have hswitch : Trace.Apt c.surface.trace switched.surface.trace :=
    apt_switch (c := { c with shutDown := plan.ends, power := plan.step.1 })
      (h ▸ hplan.follows.changes)
  have hwanted : switched.surface.trace.wantedOn = plan.step.1.powered := by
    rw [hplan.follows.result, h]
    exact wantedOn_switch { c with shutDown := plan.ends, power := plan.step.1 } plan.step.2
  refine hswitch.trans ?_
  by_cases hparts : plan.parts = []
  · -- nothing is redrawn, so the switch was all
    rw [execute, hparts]
    exact .refl
  · refine Traced.apt_of_painted (painted_showParts _ _ _) ?_
    rw [hwanted, hplan.draws hparts]

end

/-! ## Requests -/

/-- Whether a request is a shutdown. -/
def Request.shutsDown : Request ι capacity → Bool
  | .input (.event _ .shutdown _ _) | .input .shutdown => true
  | _ => false

omit [Surface S ι] in
theorem shutsDown_of_plan {c : Controller S ι} {shown : Status} {input : Input capacity}
    (hplan : c.plan shown input = .shutdown c.power shown) :
    Request.shutsDown (.input input : Request ι capacity) = true := by
  have hends := congrArg Plan.ends hplan
  cases input with
  | event agenda event status now => cases event <;> first | rfl | cases hends
  | shutdown => rfl
  | _ => cases hends

theorem trace_execute_shutdown (c : Controller (Traced S ι) ι) (shown : Status) :
    (c.execute (.shutdown c.power shown)).surface.trace =
      c.surface.trace ++ [(.power false, (Surface.power c.surface.surface false).2)] := by
  rw [execute, showParts, paintWith, stepPower]
  rfl

/-- The boot carries out a plan as well, which shuts nothing down. -/
theorem fst_boot_eq_execute (c : Controller S ι) (loader : Asset → Option ι)
    (agenda : Agenda capacity) (status : Status) (now : UInt32) :
    (c.boot loader agenda status now).1 =
      ((c.load loader).execute ⟨c.power.activity now, status, Part.all, c.shutDown⟩).withTokens
        (choreTokens c.settings agenda).1 (choreTokens c.settings agenda).2 := by
  rw [fst_boot]
  rfl

/-- A request makes apt calls, or is a shutdown and switches the panel off; and the power state is
what the panel was last asked to be. -/
theorem serve_cases {c : Controller (Traced S ι) ι}
    (h : c.power.powered = c.surface.trace.wantedOn) (request : Request ι capacity) :
    (c.serve request).power.powered = (c.serve request).surface.trace.wantedOn ∧
      (Trace.Apt c.surface.trace (c.serve request).surface.trace ∨
        request.shutsDown = true ∧ ∃ reply,
          (c.serve request).surface.trace = c.surface.trace ++ [(.power false, reply)]) := by
  cases request with
  | boot loader agenda status now =>
    have hplan : Plan.Apt ⟨c.power.activity now, status, Part.all, c.shutDown⟩
        (c.load loader).power :=
      ⟨c.power.follows_activity now, fun _ => c.power.powered_activity now⟩
    have hload : (c.load loader).power.powered = (c.load loader).surface.trace.wantedOn := h
    have hpowered := powered_execute hload hplan.follows.result
    have hcalls := apt_execute hload hplan
    rw [serve, fst_boot_eq_execute, surface_withTokens, power_withTokens]
    exact ⟨hpowered, Or.inl hcalls⟩
  | input input =>
    rw [serve]
    cases hlive : c.shutDown with
    | true =>
      rw [take_of_shutDown hlive]
      exact ⟨h, Or.inl .refl⟩
    | false =>
      rw [take_of_live hlive (.boot .initial)]
      rcases c.plan_cases (.boot .initial) input with hplan | hplan
      · exact ⟨powered_execute h hplan.follows.result, Or.inl (apt_execute h hplan)⟩
      · rw [hplan]
        exact ⟨powered_execute h c.power.powered_suspend,
          Or.inr ⟨shutsDown_of_plan hplan, _, c.trace_execute_shutdown _⟩⟩

/-! ## Runs -/

theorem run_append_singleton (c : Controller S ι) (requests : List (Request ι capacity))
    (request : Request ι capacity) :
    c.run (requests ++ [request]) = (c.run requests).serve request :=
  List.foldl_append

/-- In every run the power state is what the panel was last asked to be. -/
theorem powered_run (surface : S) (settings : Settings) (born : UInt32)
    (requests : List (Request ι capacity)) :
    let c : Controller (Traced S ι) ι := start (Traced.fresh surface) settings born
    (c.run requests).power.powered = (c.run requests).surface.trace.wantedOn := by
  intro c
  induction requests using List.reverseRecOn with
  | nil => rfl
  | append_singleton requests request ih =>
    rw [run_append_singleton]
    exact (serve_cases ih request).1

/-- **The calls of a run.** In every run, over any surface, the power state is what the panel was
last asked to be. Every draw and every flush was made while the panel was last asked to be on, and
every power command asked for a change, but for that of a shutdown. -/
theorem apt_run (surface : S) (settings : Settings) (born : UInt32)
    (requests : List (Request ι capacity)) :
    let c : Controller (Traced S ι) ι := start (Traced.fresh surface) settings born
    (c.run requests).power.powered = (c.run requests).surface.trace.wantedOn ∧
      ∀ xs call reply ys, (c.run requests).surface.trace = xs ++ (call, reply) :: ys →
        call.Apt xs.wantedOn ∨ call = .power false ∧ ∃ earlier request later,
          requests = earlier ++ request :: later ∧ request.shutsDown = true ∧
            xs = (c.run earlier).surface.trace := by
  intro c
  refine ⟨powered_run surface settings born requests, ?_⟩
  -- Induction on the requests: a call was made by the last one, or before it.
  induction requests using List.reverseRecOn with
  | nil =>
    intro xs call reply ys hsplit
    cases List.append_ne_nil_of_right_ne_nil xs (List.cons_ne_nil _ ys) hsplit.symm
  | append_singleton requests request ih =>
    intro xs call reply ys hsplit
    have hearlier : ∀ zs, (c.run requests).surface.trace = xs ++ (call, reply) :: zs →
        call.Apt xs.wantedOn ∨ call = .power false ∧ ∃ earlier other later,
          requests ++ [request] = earlier ++ other :: later ∧ other.shutsDown = true ∧
            xs = (c.run earlier).surface.trace := by
      intro zs hbefore
      refine (ih xs call reply zs hbefore).imp_right ?_
      rintro ⟨hcall, earlier, other, later, rfl, hother, hxs⟩
      exact ⟨hcall, earlier, other, later ++ [request], List.append_assoc _ _ _, hother, hxs⟩
    rw [run_append_singleton] at hsplit
    obtain ⟨-, hapt | ⟨hdown, answer, htrace⟩⟩ :=
      serve_cases (powered_run surface settings born requests) request
    · obtain ⟨zs, hbefore⟩ | hcall := hapt.apt_of_split hsplit
      · exact hearlier zs hbefore
      · exact Or.inl hcall
    · rw [htrace] at hsplit
      obtain ⟨zs, hbefore⟩ | ⟨rfl, hlast⟩ := split_append_singleton hsplit
      · exact hearlier zs hbefore
      · -- the command of the shutdown follows the calls of the requests before it
        obtain ⟨rfl, -⟩ := Prod.mk.inj hlast
        exact Or.inr ⟨rfl, requests, request, [], rfl, hdown, rfl⟩

/-- A panel that is suspended is switched off once more by the shutdown. -/
example :
    let c : Controller (Traced Recorder Asset) Asset := start (Traced.fresh {}) .standard 0
    let requests : List (Request Asset 4) := [.input .suspend, .input .shutdown]
    (c.run requests).surface.trace = [(.power false, .ok ()), (.power false, .ok ())] := by
  decide

end Controller

end StatusPanel
