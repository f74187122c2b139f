import StatusPanel.Proofs.Controller.Timetable
import StatusPanel.Surface.Recorder

/-!
# Sleep

The panel goes to sleep at the first idle check that finds the user idle for longer than the
timeout. A console that is drained whenever its next deadline says so makes its idle checks on time,
so the panel sleeps neither before the timeout is over, nor later than one interval after it. What
happens to the power state is recorded beside the console: each event and each chore, with the power
state before and after it.

## Main definitions

* `Power.Drowses`: what chores do to a power state
* `Console.Happening`, `Console.record`: what happened to the power state of a console
* `Console.lastActivity`: the time of the last activity in a record
* `Console.NeverEarly`: a record of idle checks that let the panel sleep after the timeout only

## Main results

* `Console.neverEarly_record`: the panel never sleeps early
* `Console.powered_after_of_quiet`: it does not sleep late
* `Console.sleeps_on_time`: both, for every run from a boot
-/

namespace StatusPanel

/-! ## What chores do to a power state -/

/-- A power state after chores that ran now: the panel is as it was, or it went off because it was
idle for longer than the timeout. -/
structure Power.Drowses (p q : Power) (now : UInt32) : Prop where
  lastActivity : q.lastActivity = p.lastActivity
  timeout : q.timeout = p.timeout
  wasOn : q.powered = true → p.powered = true
  idle : p.powered = true → q.powered = false → p.timeout < p.idleFor now

theorem Power.powered_idleCheck_of_idle {p : Power} {now : UInt32}
    (hidle : p.timeout < p.idleFor now) : (p.idleCheck now).1.powered = false := by
  unfold idleCheck
  split
  · exact p.powered_suspend
  case isFalse hstay => exact Bool.eq_false_iff.2 fun hon => hstay ⟨hon, hidle⟩

namespace Power.Drowses

variable {p q r : Power} {now : UInt32}

theorem refl (p : Power) (now : UInt32) : p.Drowses p now :=
  ⟨rfl, rfl, id, fun hon hoff => by rw [hon] at hoff; cases hoff⟩

theorem trans (h : p.Drowses q now) (k : q.Drowses r now) : p.Drowses r now := by
  refine ⟨k.lastActivity.trans h.lastActivity, k.timeout.trans h.timeout,
    fun hon => h.wasOn (k.wasOn hon), fun hon hoff => ?_⟩
  cases hq : q.powered with
  | false => exact h.idle hon hq
  | true =>
    have hidle := k.idle hq hoff
    rwa [Power.idleFor, h.lastActivity, h.timeout] at hidle

/-- A panel that was on went off, or is on. -/
theorem toNat_powered (h : p.Drowses q now) :
    (p.powered && !q.powered).toNat + q.powered.toNat = p.powered.toNat := by
  cases hq : q.powered with
  | false => rw [Bool.not_false, Bool.and_true, Bool.toNat_false, Nat.add_zero]
  | true => rw [h.wasOn hq, Bool.not_true, Bool.and_false, Bool.toNat_false, Nat.zero_add]

theorem idleCheck (p : Power) (now : UInt32) : p.Drowses (p.idleCheck now).1 now := by
  unfold Power.idleCheck
  split
  case isTrue hidle =>
    refine ⟨p.lastActivity_suspend, (sameTimes_suspend p).timeout, fun _ => hidle.1,
      fun _ _ => hidle.2⟩
  case isFalse => exact refl p now

end Power.Drowses

namespace Controller

variable {S ι : Type} [Surface S ι]

/-- The controller after chores ran now. -/
def runAll (c : Controller S ι) (status : Status) (now : UInt32) (runs : List ChoreRun) :
    Controller S ι :=
  runs.foldl (fun c run => (c.runChore run.chore status now).1) c

theorem drowses_runChore (c : Controller S ι) (chore : Chore) (status : Status) (now : UInt32) :
    c.power.Drowses (c.runChore chore status now).1.power now := by
  cases h : c.shutDown with
  | true =>
    rw [runChore_of_shutDown h]
    exact .refl _ now
  | false =>
    rw [power_runChore h]
    cases chore with
    | idleCheck => exact .idleCheck _ now
    | barRedraw => exact .refl _ now

theorem drowses_runAll (c : Controller S ι) (status : Status) (now : UInt32)
    (runs : List ChoreRun) : c.power.Drowses (c.runAll status now runs).power now := by
  induction runs generalizing c with
  | nil => exact .refl _ now
  | cons run rest ih => exact (c.drowses_runChore run.chore status now).trans (ih _)

/-- If the user is idle for longer than the timeout, an idle check leaves the panel off. -/
theorem powered_runAll_of_mem {c : Controller S ι} (hlive : c.shutDown = false)
    {now : UInt32} (hidle : c.power.timeout < c.power.idleFor now) (status : Status)
    {runs : List ChoreRun} (hmem : Chore.idleCheck ∈ runs.map ChoreRun.chore) :
    (c.runAll status now runs).power.powered = false := by
  induction runs generalizing c with
  | nil => cases hmem
  | cons run rest ih =>
    have hstep := c.drowses_runChore run.chore status now
    have hrest := (c.runChore run.chore status now).1.drowses_runAll status now rest
    show ((c.runChore run.chore status now).1.runAll status now rest).power.powered = false
    rcases List.mem_cons.1 hmem with hrun | hmem
    · -- this idle check leaves the panel off, and no chore switches it on
      have hoff : (c.runChore run.chore status now).1.power.powered = false := by
        rw [power_runChore hlive, ← hrun]
        exact Power.powered_idleCheck_of_idle hidle
      by_contra hon
      rw [hrest.wasOn (Bool.not_eq_false _ ▸ hon)] at hoff
      cases hoff
    · refine ih ?_ ?_ hmem
      · rw [shutDown_runChore, hlive]
      · rw [Power.idleFor, hstep.timeout, hstep.lastActivity]
        exact hidle

end Controller

namespace Console

/-! ## Records -/

/-- What changes a power state. -/
inductive Cause
  | event (event : Event)
  | chore (chore : Chore)
  deriving DecidableEq, Repr

/-- An event or a chore, with the power state before and after it. -/
structure Happening where
  time : Nat
  cause : Cause
  /-- Whether the controller was not shut down before. -/
  live : Bool
  /-- Whether the panel was taken to be on before. -/
  before : Bool
  /-- Whether the panel was taken to be on after. -/
  after : Bool
  deriving DecidableEq, Repr

namespace Happening

/-- Whether the panel went off. -/
def fell (h : Happening) : Bool := h.before && !h.after

/-- Whether this is activity of the user that was handled. -/
def isActivity (h : Happening) : Bool :=
  match h.cause with
  | .event event => h.live && event.isActivity
  | .chore _ => false

end Happening

/-- The time of the last activity in a record, or an earlier one. -/
def lastActivity (origin : Nat) (record : List Happening) : Nat :=
  record.foldl (fun last h => if h.isActivity then h.time else last) origin

/-- Whether an idle check switches the panel off only if the last activity is longer ago than the
timeout. -/
def NeverEarly (origin timeout : Nat) (record : List Happening) : Prop :=
  ∀ earlier h later, record = earlier ++ h :: later → h.cause = .chore .idleCheck →
    h.fell = true → lastActivity origin earlier + timeout < h.time

variable {S ι : Type} [Surface S ι] {capacity : Nat}

/-- The record of chores that ran at a time. -/
def choreRecord (status : Status) (time : Nat) : Controller S ι → List ChoreRun → List Happening
  | _, [] => []
  | c, run :: rest =>
    let next := (c.runChore run.chore status (UInt32.ofNat time)).1
    ⟨time, .chore run.chore, !c.shutDown, c.power.powered, next.power.powered⟩ ::
      choreRecord status time next rest

/-- The record of something that is done. -/
def happenings (k : Console S ι capacity) (m : Moment) : List Happening :=
  match m.deed with
  | .event event _ =>
    [⟨m.time, .event event, !k.controller.shutDown, k.controller.power.powered,
      (k.pass m).controller.power.powered⟩]
  | .drain status =>
    choreRecord status m.time k.controller
      (k.drain status (UInt32.ofNat m.time) k.agenda.size).runs

/-- The record of some things that are done. -/
def record (k : Console S ι capacity) : List Moment → List Happening
  | [] => []
  | m :: rest => k.happenings m ++ (k.pass m).record rest

/-- A drain leaves the controller after the chores that ran. -/
theorem controller_settle (k : Console S ι capacity) (status : Status) (now : UInt32)
    (limit : Nat) :
    (k.settle status now limit).controller =
      k.controller.runAll status now (k.drain status now limit).runs :=
  Agenda.state_drain ..

/-- A chore is no activity. -/
theorem not_isActivity_of_mem_choreRecord {status : Status} {time : Nat} {c : Controller S ι}
    {runs : List ChoreRun} {h : Happening} (hmem : h ∈ choreRecord status time c runs) :
    h.isActivity = false := by
  induction runs generalizing c with
  | nil => cases hmem
  | cons run rest ih =>
    rcases List.mem_cons.1 hmem with rfl | hmem
    · rfl
    · exact ih hmem

/-- A chore switches the panel off only if the user is idle for longer than the timeout. -/
theorem idle_of_mem_choreRecord {status : Status} {time : Nat} {c : Controller S ι}
    {runs : List ChoreRun} {h : Happening} (hmem : h ∈ choreRecord status time c runs)
    (hfell : h.fell = true) :
    h.time = time ∧ c.power.timeout < c.power.idleFor (UInt32.ofNat time) := by
  induction runs generalizing c with
  | nil => cases hmem
  | cons run rest ih =>
    have hstep := c.drowses_runChore run.chore status (UInt32.ofNat time)
    rcases List.mem_cons.1 hmem with rfl | hmem
    · obtain ⟨hon, hoff⟩ := Bool.and_eq_true_iff.1 hfell
      exact ⟨rfl, hstep.idle hon (Bool.not_eq_true' _ ▸ hoff)⟩
    · obtain ⟨htime, hidle⟩ := ih hmem
      rw [Power.idleFor, hstep.timeout, hstep.lastActivity] at hidle
      exact ⟨htime, hidle⟩

/-- The panel goes off once in a drain, or it is as it was. -/
theorem countP_choreRecord (status : Status) (time : Nat) (c : Controller S ι)
    (runs : List ChoreRun) :
    (choreRecord status time c runs).countP Happening.fell +
        (c.runAll status (UInt32.ofNat time) runs).power.powered.toNat =
      c.power.powered.toNat := by
  induction runs generalizing c with
  | nil => exact Nat.zero_add _
  | cons run rest ih =>
    have hstep := (c.drowses_runChore run.chore status (UInt32.ofNat time)).toNat_powered
    have hrest := ih (c.runChore run.chore status (UInt32.ofNat time)).1
    have hone (b : Bool) : (if b = true then 1 else 0) = b.toNat := by cases b <;> rfl
    rw [choreRecord, List.countP_cons, hone, ← hstep, ← hrest]
    show _ + (c.power.powered && !(c.runChore run.chore status _).1.power.powered).toNat +
      ((c.runChore run.chore status _).1.runAll status _ rest).power.powered.toNat = _
    omega

/-! ## Never early -/

section

variable {origin timeout : Nat}

theorem neverEarly_nil : NeverEarly origin timeout [] := by
  intro earlier h later hsplit
  cases List.append_ne_nil_of_right_ne_nil earlier (List.cons_ne_nil h later) hsplit.symm

theorem NeverEarly.cons {first : Happening} {rest : List Happening}
    (hfirst : first.cause = .chore .idleCheck → first.fell = true → origin + timeout < first.time)
    (hrest : NeverEarly (lastActivity origin [first]) timeout rest) :
    NeverEarly origin timeout (first :: rest) := by
  intro earlier h later hsplit hcause hfell
  cases earlier with
  | nil =>
    obtain ⟨rfl, -⟩ := List.cons_eq_cons.1 hsplit
    exact hfirst hcause hfell
  | cons first' earlier =>
    obtain ⟨rfl, htail⟩ := List.cons_eq_cons.1 hsplit
    exact hrest earlier h later htail hcause hfell

/-- In a record of chores, that switch the panel off late enough, and what comes after. -/
theorem NeverEarly.append_of_calm {xs ys : List Happening}
    (hcalm : ∀ h ∈ xs, h.isActivity = false)
    (hlate : ∀ h ∈ xs, h.fell = true → origin + timeout < h.time)
    (hrest : NeverEarly origin timeout ys) : NeverEarly origin timeout (xs ++ ys) := by
  induction xs with
  | nil => exact hrest
  | cons first xs ih =>
    obtain ⟨hfirst, hcalm⟩ := List.forall_mem_cons.1 hcalm
    obtain ⟨hfirstLate, hlate⟩ := List.forall_mem_cons.1 hlate
    refine NeverEarly.cons (fun _ => hfirstLate) ?_
    have hsame : lastActivity origin [first] = origin := by
      rw [lastActivity, List.foldl_cons, List.foldl_nil, hfirst]
      rfl
    rw [hsame]
    exact ih hcalm hlate

end

/-- An event that is activity is dated; no other event and no shutdown changes the date. -/
theorem lastActivity_handle (k : Console S ι capacity) (event : Event) (status : Status)
    (time : Nat) {origin : Nat} (h : k.controller.power.lastActivity = UInt32.ofNat origin) :
    (k.handle event status (UInt32.ofNat time)).controller.power.lastActivity =
      UInt32.ofNat (lastActivity origin (k.happenings ⟨time, .event event status⟩)) := by
  have hlast : lastActivity origin (k.happenings ⟨time, .event event status⟩) =
      if (!k.controller.shutDown && event.isActivity) = true then time else origin := rfl
  rw [hlast, controller_handle]
  cases hlive : k.controller.shutDown with
  | true =>
    rw [Controller.handle_of_shutDown hlive]
    exact h
  | false =>
    rw [Controller.power_handle hlive]
    cases event with
    | suspend => exact (Power.lastActivity_suspend _).trans h
    | wake => exact (Power.lastActivity_wake _).trans h
    | shutdown => exact (Power.lastActivity_suspend _).trans h
    | _ => exact Power.lastActivity_activity _ _

/-- The time since the last activity, on the clock that wraps. -/
theorem toNat_idleFor {p : Power} {active time : Nat} (hle : active ≤ time)
    (h : p.lastActivity = UInt32.ofNat active) :
    (p.idleFor (UInt32.ofNat time)).toNat = (time - active) % UInt32.size := by
  rw [Power.idleFor, h, UInt32.toNat_sub, UInt32.toNat_ofNat', UInt32.toNat_ofNat', UInt32.size]
  omega

/-- What a drain does to the power state. -/
theorem drowses_settle (k : Console S ι capacity) (status : Status) (now : UInt32) (limit : Nat) :
    k.controller.power.Drowses (k.settle status now limit).controller.power now := by
  rw [controller_settle]
  exact k.controller.drowses_runAll status now _

omit [Surface S ι] in
theorem timeout_eq {settings : Settings} {k : Console S ι capacity}
    (h : Staffed settings k.controller k.agenda) :
    k.controller.power.timeout = settings.timing.sleepTimeout :=
  congrArg Controller.Terms.timeout h.terms

/-- **The panel never sleeps early.** -/
theorem neverEarly_record {settings : Settings} {k : Console S ι capacity} {now origin : Nat}
    {moments : List Moment} (hstaffed : Staffed settings k.controller k.agenda)
    (hactive : k.controller.power.lastActivity = UInt32.ofNat origin) (horigin : origin ≤ now)
    (hprompt : k.Prompt now moments) :
    NeverEarly origin settings.timing.sleepTimeout.toNat (k.record moments) := by
  induction moments generalizing k now origin with
  | nil => exact neverEarly_nil
  | cons m rest ih =>
    obtain ⟨hle, -, hrest⟩ := hprompt
    obtain ⟨time, ⟨event, status⟩ | status⟩ := m
    · -- an event is no idle check, but may be activity
      have hlast : lastActivity origin (k.happenings ⟨time, .event event status⟩) ≤ time := by
        have hle : now ≤ time := hle
        show (if (!k.controller.shutDown && event.isActivity) = true then time else origin) ≤ time
        split <;> omega
      exact NeverEarly.cons nofun (ih (hstaffed.handle event status _)
        (k.lastActivity_handle event status time hactive) hlast hrest)
    · have hle : origin ≤ time := Nat.le_trans horigin hle
      have hdrowses := k.drowses_settle status (UInt32.ofNat time) k.agenda.size
      refine NeverEarly.append_of_calm (fun h hmem => not_isActivity_of_mem_choreRecord hmem) ?_
        (ih (hstaffed.drain status _ _) (hdrowses.lastActivity.trans hactive) hle hrest)
      intro h hmem hfell
      obtain ⟨rfl, hidle⟩ := idle_of_mem_choreRecord hmem hfell
      have hsince := Nat.mod_le (h.time - origin) UInt32.size
      rw [← toNat_idleFor hle hactive] at hsince
      rw [timeout_eq hstaffed, UInt32.lt_iff_toNat_lt] at hidle
      change _ < (k.controller.power.idleFor (UInt32.ofNat h.time)).toNat at hidle
      omega

/-! ## Never late -/

/-- Whether it is activity, or the host resumes or shuts down. -/
def Deed.rouses : Deed → Bool
  | .event reported _ => reported.isActivity || reported == .wake || reported == .shutdown
  | .drain _ => false

theorem Deed.eq_suspend_of_not_rouses {reported : Event} {status : Status}
    (h : (Deed.event reported status).rouses = false) : reported = .suspend := by
  cases reported <;> first | rfl | cases h

theorem power_handle_suspend {k : Console S ι capacity} (hlive : k.controller.shutDown = false)
    (status : Status) (now : UInt32) :
    (k.handle .suspend status now).controller.power = k.controller.power.suspend.1 :=
  Controller.power_handle hlive k.agenda .suspend status now

/-- A drain makes an idle check that is due. -/
theorem idleCheck_mem_runs {settings : Settings} {k : Console S ι capacity} {now : Nat}
    {t : Timetable} (h : OnTime settings k now t)
    (hbrief : ∀ chore, interval settings chore ≤ 0x80000000) (hdue : t.check ≤ now)
    (status : Status) :
    Chore.idleCheck ∈
      (k.drain status (UInt32.ofNat now) k.agenda.size).runs.map ChoreRun.chore := by
  exact (mem_runs_iff h.staffed hbrief h.entries (h.near hbrief) status .idleCheck).2
    ⟨⟨0, .idleCheck, false, .fixed t.check⟩, List.mem_cons_self .., rfl, Or.inr hdue⟩

/-- A panel that is on after a drain has its next idle check soon enough. -/
theorem check_settle_le {settings : Settings} {k : Console S ι capacity} {now active : Nat}
    {t : Timetable} (h : OnTime settings k now t) (hlive : k.controller.shutDown = false)
    (hbrief : ∀ chore, interval settings chore ≤ 0x80000000)
    (hactive : k.controller.power.lastActivity = UInt32.ofNat active) (hle : active ≤ now)
    {limit : Nat}
    (hlimit : limit =
      active + settings.timing.sleepTimeout.toNat + (interval settings .idleCheck).toNat)
    (hshort : limit < active + UInt32.size) (hnow : now ≤ limit)
    (hcheck : k.controller.power.powered = true → t.check ≤ limit) (status : Status)
    (hon : (k.settle status (UInt32.ofNat now) k.agenda.size).controller.power.powered = true) :
    (t.settle settings now).check ≤ limit := by
  unfold Timetable.settle
  dsimp only
  split
  case isTrue hdue =>
    -- the idle check was made, and found the user idle for no longer than the timeout
    have hsince : ¬k.controller.power.timeout < k.controller.power.idleFor (UInt32.ofNat now) := by
      intro hidle
      rw [controller_settle, Controller.powered_runAll_of_mem hlive hidle status
        (idleCheck_mem_runs h hbrief hdue status)] at hon
      cases hon
    rw [timeout_eq h.staffed, UInt32.lt_iff_toNat_lt, toNat_idleFor hle hactive,
      Nat.mod_eq_of_lt (by omega)] at hsince
    omega
  case isFalse =>
    exact hcheck ((k.drowses_settle status (UInt32.ofNat now) k.agenda.size).wasOn hon)

/-- What does not rouse a console leaves the next idle check of a panel that is on soon enough. -/
theorem check_pass_le {settings : Settings} {k : Console S ι capacity} {m : Moment}
    {active limit : Nat} {t : Timetable} (h : OnTime settings k m.time t)
    (hlive : k.controller.shutDown = false)
    (hbrief : ∀ chore, interval settings chore ≤ 0x80000000)
    (hactive : k.controller.power.lastActivity = UInt32.ofNat active) (hle : active ≤ m.time)
    (hlimit : limit =
      active + settings.timing.sleepTimeout.toNat + (interval settings .idleCheck).toNat)
    (hshort : limit < active + UInt32.size) (hnow : m.time ≤ limit)
    (hcheck : k.controller.power.powered = true → t.check ≤ limit)
    (hcalm : m.deed.rouses = false) (hon : (k.pass m).controller.power.powered = true) :
    (t.pass settings m).check ≤ limit := by
  obtain ⟨time, ⟨event, status⟩ | status⟩ := m
  · -- the host suspended, so the panel is off
    obtain rfl := Deed.eq_suspend_of_not_rouses hcalm
    have hoff : (k.handle .suspend status (UInt32.ofNat time)).controller.power.powered =
        false := by
      rw [power_handle_suspend hlive, Power.powered_suspend]
    cases hon.symm.trans hoff
  · exact check_settle_le h hlive hbrief hactive hle hlimit hshort hnow hcheck status hon

/-- What does not rouse a console that is not shut down leaves it so. It does not switch the panel
on, and does not count as activity. -/
theorem pass_of_calm {k : Console S ι capacity} (hlive : k.controller.shutDown = false)
    {m : Moment} (hcalm : m.deed.rouses = false) :
    (k.pass m).controller.shutDown = false ∧
      (k.pass m).controller.power.lastActivity = k.controller.power.lastActivity ∧
      (k.happenings m).countP Happening.fell + (k.pass m).controller.power.powered.toNat =
        k.controller.power.powered.toNat := by
  obtain ⟨time, ⟨event, status⟩ | status⟩ := m
  · -- the host suspends, and the panel is off
    obtain rfl := Deed.eq_suspend_of_not_rouses hcalm
    have hpower : (k.pass ⟨time, .event .suspend status⟩).controller.power =
        k.controller.power.suspend.1 := power_handle_suspend hlive status (UInt32.ofNat time)
    refine ⟨?_, ?_, ?_⟩
    · show (k.handle .suspend status _).controller.shutDown = false
      rw [controller_handle, Controller.shutDown_handle, hlive]
      rfl
    · rw [hpower, Power.lastActivity_suspend]
    · unfold happenings
      dsimp only
      rw [List.countP_singleton, Happening.fell, hpower, Power.powered_suspend]
      cases k.controller.power.powered <;> rfl
  · refine ⟨(shutDown_settle ..).trans hlive,
      (k.drowses_settle status (UInt32.ofNat time) k.agenda.size).lastActivity, ?_⟩
    have hdrain := countP_choreRecord status time k.controller
      (k.drain status (UInt32.ofNat time) k.agenda.size).runs
    rwa [← controller_settle] at hdrain

/-- **The panel never sleeps late.** -/
theorem powered_after_of_quiet {settings : Settings} {k : Console S ι capacity}
    {now active limit : Nat} {since rest : List Moment} {next : Moment} {t : Timetable}
    (hunderway : Underway settings k now (since ++ next :: rest))
    (hlive : k.controller.shutDown = false) (ht : OnTime settings k now t)
    (hbrief : ∀ chore, interval settings chore ≤ 0x80000000)
    (hactive : k.controller.power.lastActivity = UInt32.ofNat active) (hle : active ≤ now)
    (hlimit : limit =
      active + settings.timing.sleepTimeout.toNat + (interval settings .idleCheck).toNat)
    (hshort : limit < active + UInt32.size)
    (hcheck : k.controller.power.powered = true → t.check ≤ limit)
    (hquiet : ∀ m ∈ since, m.deed.rouses = false ∧ m.time ≤ limit) (hnext : limit < next.time) :
    (k.after since).controller.power.powered = false ∧
      (k.record since).countP Happening.fell = k.controller.power.powered.toNat := by
  induction since generalizing k now t with
  | nil =>
    -- what comes next is done after the time of an idle check of a panel that is on
    have htime := (ht.le_of_wait hbrief hunderway.prompt.2.1).1
    have hoff : k.controller.power.powered = false := by
      by_contra hon
      have hle := hcheck (Bool.not_eq_false _ ▸ hon)
      omega
    exact ⟨hoff, by rw [hoff]; rfl⟩
  | cons m since ih =>
    obtain ⟨⟨hcalm, htime⟩, hsince⟩ := List.forall_mem_cons.1 hquiet
    obtain ⟨hlive', hactive', hcount⟩ := pass_of_calm hlive hcalm
    have hlater := ht.later hbrief hunderway.prompt.1 (hunderway.started_or hlive)
      hunderway.prompt.2.1
    have hle : active ≤ m.time := Nat.le_trans hle hunderway.prompt.1
    have hcheck' := check_pass_le hlater hlive hbrief hactive hle hlimit hshort htime hcheck hcalm
    obtain ⟨hasleep, hrest⟩ := ih (hunderway.pass hbrief) hlive'
      (hunderway.onTime_pass hbrief hlive ht) (hactive'.trans hactive) hle hcheck' hsince
    refine ⟨hasleep, ?_⟩
    rw [record, List.countP_append, hrest, hcount]

/-! ## Runs from a boot -/

/-- What was done to a console that was booted at a time, up to an activity of the user: nothing,
for a boot is one, or what ends in an event that is handled. -/
inductive Roused (k : Console S ι capacity) (origin : Nat) : List Moment → Nat → Prop
  | boot : Roused k origin [] origin
  | event (earlier : List Moment) (time : Nat) (event : Event) (status : Status)
    (hactivity : event.isActivity = true) (hlive : (k.after earlier).controller.shutDown = false) :
    Roused k origin (earlier ++ [⟨time, .event event status⟩]) time

/-- A panel whose user is active now. -/
structure Awake (k : Console S ι capacity) (now : Nat) : Prop where
  live : k.controller.shutDown = false
  powered : k.controller.power.powered = true
  lastActivity : k.controller.power.lastActivity = UInt32.ofNat now

theorem awake_boot (surface : S) (settings : Settings) (born : UInt32) (loader : Asset → Option ι)
    (status : Status) (now : Nat) :
    ((start surface settings born : Console S ι capacity).boot loader status
      (UInt32.ofNat now)).Awake now := by
  have hpower := (Controller.start surface settings born : Controller S ι).power_boot loader
    (.empty : Agenda capacity) status (UInt32.ofNat now)
  refine ⟨Controller.shutDown_boot .., ?_, ?_⟩
  · exact (congrArg Power.powered hpower).trans (Power.powered_activity _ _)
  · exact (congrArg Power.lastActivity hpower).trans (Power.lastActivity_activity _ _)

theorem awake_handle {k : Console S ι capacity} (hlive : k.controller.shutDown = false)
    {event : Event} (hactivity : event.isActivity = true) (status : Status) (now : Nat) :
    (k.handle event status (UInt32.ofNat now)).Awake now := by
  have hpower := Controller.power_handle_of_isActivity hlive k.agenda hactivity status
    (UInt32.ofNat now)
  rw [← controller_handle] at hpower
  refine ⟨?_, ?_, ?_⟩
  · rw [controller_handle, Controller.shutDown_handle, hlive]
    cases event <;> first | rfl | cases hactivity
  · rw [hpower, Power.powered_activity]
  · rw [hpower, Power.lastActivity_activity]

/-- A console is awake after an activity, and what is done next is done in the middle of its run. -/
theorem Roused.awake {settings : Settings} {k : Console S ι capacity} {origin active : Nat}
    {earlier rest : List Moment} (h : k.Roused origin earlier active)
    (hunderway : Underway settings k origin (earlier ++ rest))
    (hbrief : ∀ chore, interval settings chore ≤ 0x80000000) (hboot : k.Awake origin) :
    (k.after earlier).Awake active ∧ Underway settings (k.after earlier) active rest := by
  have hafter := hunderway.after hbrief
  cases h with
  | boot => exact ⟨hboot, hafter⟩
  | event earlier _ event status hactivity hlive =>
    rw [List.foldl_append] at hafter
    refine ⟨?_, hafter⟩
    rw [after, List.foldl_append]
    exact awake_handle hlive hactivity status active

/-- A boot is the start of every run that keeps to the deadlines and drains the chores before time
passes. -/
theorem underway_boot (hcapacity : 2 ≤ capacity) (surface : S) (settings : Settings)
    (born : UInt32) (loader : Asset → Option ι) (status : Status) {now : Nat}
    {moments : List Moment} :
    let k : Console S ι capacity :=
      (start surface settings born).boot loader status (UInt32.ofNat now)
    k.Prompt now moments → (∃ status, ⟨now, .drain status⟩ ∈ moments) →
      Underway settings k now moments := by
  intro k hprompt hfirst
  have honTime := onTime_boot (ι := ι) hcapacity surface settings born loader status now
  exact ⟨honTime.staffed, hprompt, fun _ => ⟨_, honTime⟩, fun _ => Or.inr hfirst⟩

/-- **The panel sleeps on time.** Take a console that was booted, with intervals of at least one and
at most half a turn of the clock, and a timeout that together with the interval of the idle check
is shorter than a turn. Let it handle events and drain its chores at times that do not go back, with
a drain at the time of the boot and one whenever the next deadline says so. Every drain comes to its
end. An idle check lets the panel sleep only if the last activity, or the boot, is longer ago than
the timeout. After an activity, or the boot, let there be no activity, resume or shutdown until the
timeout and one interval are over. Then the panel is off, and it went off once. -/
theorem sleeps_on_time (hcapacity : 2 ≤ capacity) (surface : S) (settings : Settings)
    (born : UInt32) (loader : Asset → Option ι) (status : Status) {origin timeout interval : Nat}
    (htimeout : timeout = settings.timing.sleepTimeout.toNat)
    (hinterval : interval = settings.timing.checkInterval.toNat)
    (hcheck : 0 < settings.timing.checkInterval ∧ settings.timing.checkInterval ≤ 0x80000000)
    (hbar : 0 < settings.timing.barInterval ∧ settings.timing.barInterval ≤ 0x80000000)
    (hshort : timeout + interval < UInt32.size) {k : Console S ι capacity}
    (hk : k = (start surface settings born).boot loader status (UInt32.ofNat origin))
    {moments : List Moment} (hprompt : k.Prompt origin moments)
    (hfirst : ∃ status, ⟨origin, .drain status⟩ ∈ moments) :
    (∀ earlier time status later, moments = earlier ++ ⟨time, .drain status⟩ :: later →
      ((k.after earlier).drain status (UInt32.ofNat time)
        (k.after earlier).agenda.size).finished = true) ∧
    NeverEarly origin timeout (k.record moments) ∧
    ∀ earlier active since next later, moments = earlier ++ (since ++ next :: later) →
      k.Roused origin earlier active →
      (∀ m ∈ since, m.deed.rouses = false ∧ m.time ≤ active + timeout + interval) →
      active + timeout + interval < next.time →
      (k.after (earlier ++ since)).controller.power.powered = false ∧
        ((k.after earlier).record since).countP Happening.fell = 1 := by
  have hidle : Console.interval settings .idleCheck = settings.timing.checkInterval :=
    max_one_of_pos hcheck.1
  have hredraw : Console.interval settings .barRedraw = settings.timing.barInterval :=
    max_one_of_pos hbar.1
  have hbrief (chore : Chore) : Console.interval settings chore ≤ 0x80000000 := by
    cases chore with
    | idleCheck => exact hidle ▸ hcheck.2
    | barRedraw => exact hredraw ▸ hbar.2
  have hboot : k.Awake origin := hk ▸ awake_boot surface settings born loader status origin
  have hunderway : Underway settings k origin moments := by
    subst hk
    exact underway_boot hcapacity surface settings born loader status hprompt hfirst
  refine ⟨?_, ?_, ?_⟩
  · rintro earlier time status later rfl
    have hstaffed := (hunderway.after hbrief).staffed
    exact (hstaffed.drain_of_rests (hstaffed.rests hbrief) status _ (Nat.le_refl _)).1
  · rw [htimeout]
    exact neverEarly_record hunderway.staffed hboot.lastActivity (Nat.le_refl _) hprompt
  · rintro earlier active since next later rfl hroused hquiet hnext
    obtain ⟨hawake, hrest⟩ := hroused.awake hunderway hbrief hboot
    obtain ⟨t, ht⟩ := hrest.onTime hawake.live
    have hsoon := ht.check_le
    rw [hidle] at hsoon
    obtain ⟨hasleep, hcount⟩ := powered_after_of_quiet hrest hawake.live ht hbrief
      hawake.lastActivity (Nat.le_refl _) (by rw [htimeout, hinterval, hidle]) (by omega)
      (fun _ => by omega) hquiet hnext
    refine ⟨?_, by rw [hcount, hawake.powered, Bool.toNat_true]⟩
    rwa [after, List.foldl_append]

/-- A panel that sleeps after 30 ms. It looks for idleness every 20 ms. -/
def drowsySettings : Settings :=
  { timing.sleepTimeout := 30, timing.checkInterval := 20, timing.barInterval := 50 }

/-- This panel is booted 60 ms before the clock wraps. -/
def drowsyBoot : Console Recorder Asset 2 :=
  (start {} drowsySettings 0).boot some (.boot .initial) (UInt32.ofNat 4294967236)

/-- Drains at these times. -/
def drainsAt (times : List Nat) : List Moment :=
  times.map fun time => ⟨time, .drain (.boot .initial)⟩

/-- A key is pressed 25 ms after the boot. -/
def drowsyKey : List Moment :=
  drainsAt [4294967236, 4294967256] ++ [⟨4294967261, .event (.key true) (.boot .initial)⟩]

/-- What is done in the 50 ms after the key. -/
def drowsyQuiet : List Moment := drainsAt [4294967261, 4294967276, 4294967296, 4294967311]

/-- What is done first after these 50 ms. -/
def drowsyNext : Moment := ⟨4294967316, .drain (.boot .initial)⟩

/-- The idle check that is made when the clock wraps finds the user idle for 35 ms. -/
theorem sleeps_on_time_rollover :
    drowsyBoot.Prompt 4294967236 (drowsyKey ++ (drowsyQuiet ++ [drowsyNext])) ∧
      NeverEarly 4294967236 30 (drowsyBoot.record (drowsyKey ++ (drowsyQuiet ++ [drowsyNext]))) ∧
      (drowsyBoot.after (drowsyKey ++ drowsyQuiet)).controller.power.powered = false ∧
      ((drowsyBoot.after drowsyKey).record drowsyQuiet).countP Happening.fell = 1 ∧
      ((drowsyBoot.after drowsyKey).record drowsyQuiet).filter Happening.fell =
        [⟨4294967296, .chore .idleCheck, true, true, false⟩] := by
  have hboot : drowsyBoot =
      (start {} drowsySettings 0).boot some (.boot .initial) (UInt32.ofNat 4294967236) := by
    rw [drowsyBoot]
  have hprompt : drowsyBoot.Prompt 4294967236 (drowsyKey ++ (drowsyQuiet ++ [drowsyNext])) := by
    decide +kernel
  have hfirst : ∃ status, ⟨4294967236, .drain status⟩ ∈
      drowsyKey ++ (drowsyQuiet ++ [drowsyNext]) := ⟨.boot .initial, List.mem_cons_self ..⟩
  have htimeout : 30 = drowsySettings.timing.sleepTimeout.toNat := by decide
  have hinterval : 20 = drowsySettings.timing.checkInterval.toNat := by decide
  obtain ⟨-, hearly, hlate⟩ := sleeps_on_time (by decide) ({} : Recorder) drowsySettings 0 some
    (.boot .initial) htimeout hinterval (by decide) (by decide) (by decide) hboot hprompt hfirst
  have hlive : (drowsyBoot.after (drainsAt [4294967236, 4294967256])).controller.shutDown =
      false := by
    decide +kernel
  have hroused : drowsyBoot.Roused 4294967236 drowsyKey 4294967261 :=
    .event (drainsAt [4294967236, 4294967256]) 4294967261 (.key true) (.boot .initial) rfl hlive
  have hquiet : ∀ m ∈ drowsyQuiet, m.deed.rouses = false ∧ m.time ≤ 4294967261 + 30 + 20 := by
    decide +kernel
  obtain ⟨hasleep, hcount⟩ := hlate drowsyKey 4294967261 drowsyQuiet drowsyNext [] rfl hroused
    hquiet (by decide)
  exact ⟨hprompt, hearly, hasleep, hcount, by decide +kernel⟩

end Console

end StatusPanel
