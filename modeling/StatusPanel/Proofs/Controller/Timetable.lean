import StatusPanel.Proofs.Agenda.Calendar
import StatusPanel.Proofs.Controller.Console

/-!
# The timetable of a console

Events are handled by a console and its chores are drained at times that do not wrap. A console that
is drained whenever its next deadline says so keeps a timetable: the times of the next idle check
and of the next redraw of the bars, neither of which is passed. A drain moves a time that is reached
on by the interval of its chore, and no event moves the time of the idle check.

## Main definitions

* `Console.Moment`, `Console.pass`, `Console.after`: what is done to a console, and what follows
* `Console.Prompt`: no deadline is passed
* `Timetable`, `Timetable.pass`: the times of the chores
* `Console.OnTime`: a console that keeps a timetable
* `Console.Underway`: a console in the middle of a run

## Main results

* `Console.entries_settle`, `Console.mem_runs_iff`: what a drain leaves of the chores, and runs
* `Console.onTime_boot`: the timetable after a boot
* `Console.OnTime.pass`: what is done to a console that keeps a timetable
* `Console.Underway.after`: the console keeps a timetable through every run
-/

namespace StatusPanel

namespace Console

/-- What is done to a console. -/
inductive Deed
  | event (event : Event) (status : Status)
  | drain (status : Status)

/-- Something that is done at a time. -/
structure Moment where
  time : Nat
  deed : Deed

variable {S ι : Type} [Surface S ι] {capacity : Nat}

/-- The console after something was done. -/
def pass (k : Console S ι capacity) (m : Moment) : Console S ι capacity :=
  match m.deed with
  | .event event status => k.handle event status (UInt32.ofNat m.time)
  | .drain status => k.settle status (UInt32.ofNat m.time) k.agenda.size

/-- The console after some things were done. -/
def after (k : Console S ι capacity) (moments : List Moment) : Console S ι capacity :=
  moments.foldl pass k

/-- Whether time never goes back, nor on beyond the next deadline. -/
def Prompt (k : Console S ι capacity) (now : Nat) : List Moment → Prop
  | [] => True
  | m :: rest =>
    now ≤ m.time ∧
      (∀ wait ∈ (k.agenda.nextDeadline (UInt32.ofNat now)).2, m.time ≤ now + wait.toNat) ∧
      (k.pass m).Prompt m.time rest

instance decidablePrompt (k : Console S ι capacity) (now : Nat) (moments : List Moment) :
    Decidable (k.Prompt now moments) :=
  match moments with
  | [] => isTrue trivial
  | m :: rest =>
    -- decided on the one wait there may be, not on every number
    have (o : Option UInt32) : Decidable (∀ wait ∈ o, m.time ≤ now + wait.toNat) :=
      Option.decidableForallMem o
    have := decidablePrompt (k.pass m) m.time rest
    inferInstanceAs (Decidable (now ≤ m.time ∧
      (∀ wait ∈ (k.agenda.nextDeadline (UInt32.ofNat now)).2, m.time ≤ now + wait.toNat) ∧
      (k.pass m).Prompt m.time rest))

end Console

/-! ## Timetables -/

/-- When the chores of a console fall due. -/
structure Timetable where
  /-- The time of the next idle check. -/
  check : Nat
  /-- The time of the next redraw of the bars. -/
  redraw : Nat
  /-- Whether the bars are wanted soon. -/
  soon : Bool

namespace Timetable

/-- The chores at their times. -/
def appointments (t : Timetable) : List Appointment :=
  [⟨0, .idleCheck, false, .fixed t.check⟩, ⟨1, .barRedraw, t.soon, .fixed t.redraw⟩]

/-- The timetable after an event. -/
def handle (t : Timetable) : Event → Timetable
  | .key _ => { t with soon := true }
  | _ => t

/-- The timetable after a drain. -/
def settle (t : Timetable) (settings : Settings) (now : Nat) : Timetable where
  check :=
    if t.check ≤ now then now + (Console.interval settings .idleCheck).toNat else t.check
  redraw :=
    if t.soon = true ∨ t.redraw ≤ now then now + (Console.interval settings .barRedraw).toNat
    else t.redraw
  soon := false

/-- The timetable after something was done. -/
def pass (t : Timetable) (settings : Settings) (m : Console.Moment) : Timetable :=
  match m.deed with
  | .event event _ => t.handle event
  | .drain _ => t.settle settings m.time

end Timetable

/-! ## Agendas whose delays run -/

namespace Agenda

variable {capacity : Nat}

/-- Whether no delay waits for a look at the clock. -/
def Started (a : Agenda capacity) : Prop := ∀ e ∈ a.entries, ∀ now, e.anchor now = e

theorem Started.anchor_eq {a : Agenda capacity} (h : a.Started) (now : UInt32) :
    (a.anchor now).entries = a.entries :=
  (List.map_congr_left fun e he => (h e he now).trans (id_eq e).symm).trans (List.map_id _)

theorem started_of_wrap {a : Agenda capacity} {t : Timetable}
    (h : a.entries = t.appointments.map Appointment.wrap) : a.Started := by
  rw [Started, h]
  intro e he now
  obtain ⟨p, hp, rfl⟩ := List.mem_map.1 he
  rcases List.mem_cons.1 hp with rfl | hp
  · rfl
  · obtain rfl := List.mem_singleton.1 hp
    rfl

/-- Wanting a chore soon and looking at the clock can be done in any order. -/
theorem anchor_wantSoon (a : Agenda capacity) (token : Token) (now : UInt32) :
    ((a.wantSoon token).anchor now).entries = ((a.anchor now).wantSoon token).entries :=
  (changeFirst_map (fun _ => by rfl) (fun _ => by rfl) a.entries).symm

theorem Started.wantSoon {a : Agenda capacity} (h : a.Started) (token : Token) :
    (a.wantSoon token).Started := by
  intro e he now
  rcases mem_changeFirst he with he | ⟨e₀, he₀, -, rfl⟩
  · exact h e he now
  · have hanchor := h e₀ he₀ now
    rw [Entry.anchor] at hanchor ⊢
    exact congrArg (fun e : Entry => { e with soon := true }) hanchor

end Agenda

namespace Console

variable {S ι : Type} [Surface S ι] {capacity : Nat}

/-- A console that keeps a timetable: a look at the clock now finds the chores at their times, which
were not passed and are no farther ahead than their intervals. -/
structure OnTime (settings : Settings) (k : Console S ι capacity) (now : Nat) (t : Timetable) :
    Prop where
  staffed : Staffed settings k.controller k.agenda
  entries : (k.agenda.anchor (UInt32.ofNat now)).entries = t.appointments.map Appointment.wrap
  le_check : now ≤ t.check
  check_le : t.check ≤ now + (interval settings .idleCheck).toNat
  le_redraw : now ≤ t.redraw
  redraw_le : t.redraw ≤ now + (interval settings .barRedraw).toNat

/-- The timetable after a boot. -/
theorem onTime_boot (hcapacity : 2 ≤ capacity) (surface : S) (settings : Settings)
    (born : UInt32) (loader : Asset → Option ι) (status : Status) (now : Nat) :
    OnTime settings
      ((start surface settings born : Console S ι capacity).boot loader status (UInt32.ofNat now))
      now
      { check := now + (interval settings .idleCheck).toNat
        redraw := now + (interval settings .barRedraw).toNat
        soon := false } := by
  have hentries := entries_boot hcapacity surface settings born loader status (UInt32.ofNat now)
  constructor
  case staffed => exact staffed_boot hcapacity surface settings born loader status _
  case entries =>
    show List.map _ _ = _
    rw [hentries]
    simp [Entry.anchor, Due.time, Timetable.appointments, Appointment.wrap,
      Appointment.Date.wrap]
  all_goals dsimp only; omega

/-- What a drain leaves of an appointment. -/
def attend (settings : Settings) (now : Nat) (p : Appointment) : Appointment :=
  if p.soon = true ∨ p.deadline now ≤ now then p.rearm (interval settings p.chore).toNat now else p

theorem attend_fixed (settings : Settings) (now : Nat) (token : Token) (chore : Chore)
    (soon : Bool) (time : Nat) :
    attend settings now ⟨token, chore, soon, .fixed time⟩ =
      ⟨token, chore, false, .fixed
        (if soon = true ∨ time ≤ now then now + (interval settings chore).toNat else time)⟩ := by
  unfold attend Appointment.rearm Appointment.deadline
  dsimp only
  by_cases h : soon = true ∨ time ≤ now
  · rw [if_pos h, if_pos h]
  · rw [if_neg h, if_neg h, Bool.eq_false_iff.2 (not_or.1 h).1]

theorem map_attend_appointments (settings : Settings) (now : Nat) (t : Timetable) :
    t.appointments.map (attend settings now) = (t.settle settings now).appointments := by
  simp [Timetable.appointments, Timetable.settle, attend_fixed]

/-- **A drain at a time.** Until a shutdown, a drain comes to its end. It runs the chores that are
wanted soon or whose deadline is reached, and re-arms them from now on. -/
theorem entries_settle {settings : Settings} {k : Console S ι capacity}
    (hstaffed : Staffed settings k.controller k.agenda) (hlive : k.controller.shutDown = false)
    (hbrief : ∀ chore, interval settings chore ≤ 0x80000000) {now : Nat} {ps : List Appointment}
    (hentries : (k.agenda.anchor (UInt32.ofNat now)).entries = ps.map Appointment.wrap)
    (hnear : ∀ p ∈ ps, p.Near now) (status : Status) :
    (k.settle status (UInt32.ofNat now) k.agenda.size).agenda.entries =
      (ps.map (attend settings now)).map Appointment.wrap := by
  have hrearm (chore : Chore) : k.controller.rearm chore = .after (interval settings chore) := by
    rw [Controller.rearm, hlive, hstaffed.interval_eq]
    rfl
  have hdrain := (hstaffed.drain_of_rests (hstaffed.rests hbrief) status (UInt32.ofNat now)
    (Nat.le_refl _)).2.2.2
  refine Eq.trans hdrain ?_
  rw [hentries, List.filterMap_map, List.map_map]
  refine List.filterMap_eq_map_iff_forall_eq_some.2 fun p hp => ?_
  have hready : p.wrap.ready (UInt32.ofNat now) = true ↔ p.soon = true ∨ p.deadline now ≤ now := by
    rw [Entry.ready, Appointment.isDue_wrap (hnear p hp), Bool.or_eq_true, decide_eq_true_eq]
    rfl
  show (if p.wrap.ready _ then _ else some p.wrap) = some (attend settings now p).wrap
  rw [attend]
  by_cases h : p.soon = true ∨ p.deadline now ≤ now
  · rw [if_pos (hready.2 h), if_pos h, hrearm]
    exact congrArg some (p.rearm_wrap _ now)
  · rw [if_neg (mt hready.1 h), if_neg h]

/-- A drain runs a chore exactly if it is wanted soon or its deadline is reached. -/
theorem mem_runs_iff {settings : Settings} {k : Console S ι capacity}
    (hstaffed : Staffed settings k.controller k.agenda)
    (hbrief : ∀ chore, interval settings chore ≤ 0x80000000) {now : Nat} {ps : List Appointment}
    (hentries : (k.agenda.anchor (UInt32.ofNat now)).entries = ps.map Appointment.wrap)
    (hnear : ∀ p ∈ ps, p.Near now) (status : Status) (chore : Chore) :
    chore ∈ (k.drain status (UInt32.ofNat now) k.agenda.size).runs.map ChoreRun.chore ↔
      ∃ p ∈ ps, p.chore = chore ∧ (p.soon = true ∨ p.deadline now ≤ now) := by
  have hperm := (hstaffed.drain_of_rests (hstaffed.rests hbrief) status (UInt32.ofNat now)
    (Nat.le_refl _)).2.1
  have hready : ∀ p ∈ ps, (p.wrap.ready (UInt32.ofNat now) = true ↔
      p.soon = true ∨ p.deadline now ≤ now) := by
    intro p hp
    rw [Entry.ready, Appointment.isDue_wrap (hnear p hp), Bool.or_eq_true, decide_eq_true_eq]
    rfl
  have hchores := hperm.map Prod.snd
  rw [List.map_map, List.map_map] at hchores
  refine hchores.mem_iff.trans ?_
  rw [Agenda.readyEntries, hentries]
  constructor
  · intro hmem
    obtain ⟨e, he, rfl⟩ := List.mem_map.1 hmem
    obtain ⟨hwrapped, hdue⟩ := List.mem_filter.1 he
    obtain ⟨p, hp, rfl⟩ := List.mem_map.1 hwrapped
    exact ⟨p, hp, rfl, (hready p hp).1 hdue⟩
  · rintro ⟨p, hp, rfl, hdue⟩
    exact List.mem_map.2
      ⟨p.wrap, List.mem_filter.2 ⟨List.mem_map_of_mem hp, (hready p hp).2 hdue⟩, rfl⟩

namespace OnTime

variable {settings : Settings} {k : Console S ι capacity} {now : Nat} {t : Timetable}

omit [Surface S ι] in
/-- Both appointments are near. -/
theorem near (h : OnTime settings k now t)
    (hbrief : ∀ chore, interval settings chore ≤ 0x80000000) :
    ∀ p ∈ t.appointments, p.Near now := by
  have hcheck := UInt32.le_iff_toNat_le.1 (hbrief .idleCheck)
  have hredraw := UInt32.le_iff_toNat_le.1 (hbrief .barRedraw)
  have hhalf : (0x80000000 : UInt32).toNat = halfTurn := rfl
  have hpos : 0 < halfTurn := by decide
  obtain ⟨-, -, hle_check, hcheck_le, hle_redraw, hredraw_le⟩ := h
  intro p hp
  rcases List.mem_cons.1 hp with rfl | hp
  · constructor <;> simp only [Appointment.deadline] <;> omega
  · obtain rfl := List.mem_singleton.1 hp
    constructor <;> simp only [Appointment.deadline] <;> omega

omit [Surface S ι] in
/-- A time that is no later than the next deadline passes neither chore. -/
theorem le_of_wait (h : OnTime settings k now t)
    (hbrief : ∀ chore, interval settings chore ≤ 0x80000000) {later : Nat}
    (hwait : ∀ wait ∈ (k.agenda.nextDeadline (UInt32.ofNat now)).2, later ≤ now + wait.toNat) :
    later ≤ t.check ∧ later ≤ t.redraw := by
  have hnear := h.near hbrief
  let check : Appointment := ⟨0, .idleCheck, false, .fixed t.check⟩
  let redraw : Appointment := ⟨1, .barRedraw, t.soon, .fixed t.redraw⟩
  have hdeadline : (k.agenda.nextDeadline (UInt32.ofNat now)).2 =
      some (min (check.wrap.wait (UInt32.ofNat now)) (redraw.wrap.wait (UInt32.ofNat now))) := by
    show (List.map _ _).min? = _
    rw [h.entries]
    rfl
  have hle := hwait _ hdeadline
  rw [Word.toNat_min, Appointment.toNat_wait_wrap (hnear check (List.mem_cons_self ..)),
    Appointment.toNat_wait_wrap (hnear redraw (List.mem_cons_of_mem _ (List.mem_singleton_self _)))]
    at hle
  -- the wait for a chore ends at its time, or at once
  have hcheck : check.wait now ≤ t.check - now := by
    unfold Appointment.wait
    split
    · exact Nat.zero_le _
    · exact Nat.le_refl _
  have hredraw : redraw.wait now ≤ t.redraw - now := by
    unfold Appointment.wait
    split
    · exact Nat.zero_le _
    · exact Nat.le_refl _
  have hle_check := h.le_check
  have hle_redraw := h.le_redraw
  omega

omit [Surface S ι] in
/-- Time passes, but no chore. -/
theorem later (h : OnTime settings k now t)
    (hbrief : ∀ chore, interval settings chore ≤ 0x80000000) {later : Nat} (hle : now ≤ later)
    (hstarted : k.agenda.Started ∨ later = now)
    (hwait : ∀ wait ∈ (k.agenda.nextDeadline (UInt32.ofNat now)).2, later ≤ now + wait.toNat) :
    OnTime settings k later t := by
  obtain ⟨hcheck, hredraw⟩ := h.le_of_wait hbrief hwait
  have hcheck_le := h.check_le
  have hredraw_le := h.redraw_le
  refine ⟨h.staffed, ?_, hcheck, by omega, hredraw, by omega⟩
  rcases hstarted with hstarted | rfl
  · rw [hstarted.anchor_eq, ← hstarted.anchor_eq (UInt32.ofNat now)]
    exact h.entries
  · exact h.entries

/-- An event does not move the times. -/
theorem handle (h : OnTime settings k now t) (hlive : k.controller.shutDown = false)
    (event : Event) (status : Status) :
    OnTime settings (k.handle event status (UInt32.ofNat now)) now (t.handle event) := by
  have hstaffed := h.staffed.handle event status (UInt32.ofNat now)
  have hbar : k.controller.barToken = some 1 := congrArg Controller.Terms.barToken h.staffed.terms
  have hsnd := k.controller.snd_handle k.agenda event status (UInt32.ofNat now)
  rw [hlive, hbar] at hsnd
  have hagenda := congrArg Prod.fst hsnd
  cases event with
  | key pressed =>
    refine ⟨hstaffed, ?_, h.le_check, h.check_le, h.le_redraw, h.redraw_le⟩
    rw [agenda_handle, hagenda]
    show ((k.agenda.wantSoon 1).anchor _).entries = _
    rw [Agenda.anchor_wantSoon]
    show changeFirst _ _ _ = _
    rw [h.entries]
    rfl
  | _ =>
    refine ⟨hstaffed, ?_, h.le_check, h.check_le, h.le_redraw, h.redraw_le⟩
    rw [agenda_handle, hagenda]
    exact h.entries

/-- A drain moves the times that are reached on. -/
theorem settle (h : OnTime settings k now t) (hlive : k.controller.shutDown = false)
    (hbrief : ∀ chore, interval settings chore ≤ 0x80000000) (status : Status) :
    OnTime settings (k.settle status (UInt32.ofNat now) k.agenda.size) now
        (t.settle settings now) ∧
      (k.settle status (UInt32.ofNat now) k.agenda.size).agenda.Started := by
  have hstaffed := h.staffed.drain status (UInt32.ofNat now) k.agenda.size
  have hentries := entries_settle h.staffed hlive hbrief h.entries (h.near hbrief) status
  rw [map_attend_appointments] at hentries
  have hstarted := Agenda.started_of_wrap hentries
  refine ⟨⟨hstaffed, (hstarted.anchor_eq _).trans hentries, ?_, ?_, ?_, ?_⟩, hstarted⟩
  all_goals
    obtain ⟨-, -, hle_check, hcheck_le, hle_redraw, hredraw_le⟩ := h
    unfold Timetable.settle
    dsimp only
    split <;> omega

/-- **One thing done.** A console that keeps a timetable keeps it when something is done to it no
later than its next deadline. -/
theorem pass (h : OnTime settings k now t) (hlive : k.controller.shutDown = false)
    (hbrief : ∀ chore, interval settings chore ≤ 0x80000000) {m : Moment} (hle : now ≤ m.time)
    (hstarted : k.agenda.Started ∨ m.time = now)
    (hwait : ∀ wait ∈ (k.agenda.nextDeadline (UInt32.ofNat now)).2, m.time ≤ now + wait.toNat) :
    OnTime settings (k.pass m) m.time (t.pass settings m) := by
  have hlater := h.later hbrief hle hstarted hwait
  obtain ⟨time, deed⟩ := m
  cases deed with
  | event event status => exact hlater.handle hlive event status
  | drain status => exact (hlater.settle hlive hbrief status).1

end OnTime

/-! ## Runs -/

section

variable {settings : Settings} {k : Console S ι capacity} {now : Nat}

theorem Prompt.le_of_mem {moments : List Moment} (h : k.Prompt now moments) {m : Moment}
    (hm : m ∈ moments) : now ≤ m.time := by
  induction moments generalizing k now with
  | nil => cases hm
  | cons first rest ih =>
    obtain ⟨hle, -, hrest⟩ := h
    rcases List.mem_cons.1 hm with rfl | hm
    · exact hle
    · exact Nat.le_trans hle (ih hrest hm)

/-- Once the delays run, they do. -/
theorem started_handle (h : k.agenda.Started) (event : Event) (status : Status) (now : UInt32) :
    (k.handle event status now).agenda.Started := by
  rw [agenda_handle, Controller.snd_handle]
  split
  · exact h
  · cases event with
    | key pressed =>
      cases k.controller.barToken with
      | none => exact h
      | some token => exact h.wantSoon token
    | _ => exact h

/-- No chore and no event undoes a shutdown. -/
theorem shutDown_pass (m : Moment) (h : k.controller.shutDown = true) :
    (k.pass m).controller.shutDown = true := by
  obtain ⟨time, ⟨event, status⟩ | status⟩ := m
  · show (k.handle event status _).controller.shutDown = true
    rw [controller_handle, Controller.shutDown_handle, h, Bool.true_or]
  · exact (shutDown_settle ..).trans h

/-- A console in the middle of a run, with what is still to be done. Until a shutdown it keeps a
timetable, and its delays run or will when it is drained, before time passes. -/
structure Underway (settings : Settings) (k : Console S ι capacity) (now : Nat)
    (rest : List Moment) : Prop where
  staffed : Staffed settings k.controller k.agenda
  prompt : k.Prompt now rest
  onTime : k.controller.shutDown = false → ∃ t, OnTime settings k now t
  started : k.controller.shutDown = false →
    k.agenda.Started ∨ ∃ status, ⟨now, .drain status⟩ ∈ rest

namespace Underway

variable {m : Moment} {rest : List Moment}

/-- No time passes before the delays run. -/
theorem started_or (h : Underway settings k now (m :: rest))
    (hlive : k.controller.shutDown = false) : k.agenda.Started ∨ m.time = now := by
  obtain ⟨hle, -, hrest⟩ := h.prompt
  rcases h.started hlive with hstarted | ⟨status, hmem⟩
  · exact Or.inl hstarted
  · refine Or.inr (Nat.le_antisymm ?_ hle)
    rcases List.mem_cons.1 hmem with rfl | hmem
    · exact Nat.le_refl _
    · exact hrest.le_of_mem hmem

theorem onTime_pass (h : Underway settings k now (m :: rest))
    (hbrief : ∀ chore, interval settings chore ≤ 0x80000000)
    (hlive : k.controller.shutDown = false) {t : Timetable} (ht : OnTime settings k now t) :
    OnTime settings (k.pass m) m.time (t.pass settings m) :=
  ht.pass hlive hbrief h.prompt.1 (h.started_or hlive) h.prompt.2.1

/-- **One step of a run.** -/
theorem pass (h : Underway settings k now (m :: rest))
    (hbrief : ∀ chore, interval settings chore ≤ 0x80000000) :
    Underway settings (k.pass m) m.time rest := by
  have hbefore (hafter : (k.pass m).controller.shutDown = false) :
      k.controller.shutDown = false := by
    by_contra hshut
    rw [shutDown_pass m (Bool.not_eq_false _ ▸ hshut)] at hafter
    cases hafter
  constructor
  case staffed =>
    obtain ⟨time, ⟨event, status⟩ | status⟩ := m
    · exact h.staffed.handle event status _
    · exact h.staffed.drain status _ _
  case prompt => exact h.prompt.2.2
  case onTime =>
    intro hafter
    obtain ⟨t, ht⟩ := h.onTime (hbefore hafter)
    exact ⟨_, h.onTime_pass hbrief (hbefore hafter) ht⟩
  case started =>
    intro hafter
    have hlive := hbefore hafter
    obtain ⟨t, ht⟩ := h.onTime hlive
    have hlater := ht.later hbrief h.prompt.1 (h.started_or hlive) h.prompt.2.1
    obtain ⟨time, ⟨event, status⟩ | status⟩ := m
    · -- an event leaves the drain to be done
      rcases h.started_or hlive with hstarted | rfl
      · exact Or.inl (started_handle hstarted event status _)
      · rcases h.started hlive with hstarted | ⟨other, hmem⟩
        · exact Or.inl (started_handle hstarted event status _)
        · rcases List.mem_cons.1 hmem with heq | hmem
          · cases heq
          · exact Or.inr ⟨other, hmem⟩
    · exact Or.inl (hlater.settle hlive hbrief status).2

/-- **A run.** -/
theorem after {moments : List Moment} (h : Underway settings k now (moments ++ rest))
    (hbrief : ∀ chore, interval settings chore ≤ 0x80000000) :
    Underway settings (k.after moments) (moments.foldl (fun _ m => m.time) now) rest := by
  induction moments generalizing k now with
  | nil => exact h
  | cons m moments ih => exact ih (h.pass hbrief)

end Underway

end

end Console

end StatusPanel
