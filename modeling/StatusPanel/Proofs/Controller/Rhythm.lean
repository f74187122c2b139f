import Mathlib.Data.List.Chain
import Mathlib.Data.List.Induction
import StatusPanel.Proofs.Controller.Sleep

/-!
# The rhythm of the chores

Each chore of a console keeps its own rhythm. It runs at the first drain that comes an interval
after its last run, or after the first drain of all, and the bars run as well when a key was handled
since. For this the drains may come at any times that are less than half a turn of the clock apart;
they need not keep to the deadlines, and what events come in between, and when, does not matter.

## Main definitions

* `Console.lastRun`, `Console.barsWanted`: what a record says of the chores
* `Console.drainTimes`, `Console.Regular`: the drains of a run, and how far they are apart
* `Console.countsFrom`: the time from which the interval of a chore counts
* `Console.rhythm`: the timetable that follows from the past
* `Console.Paced`: a console whose agenda keeps the rhythm

## Main results

* `Console.countsFrom_drain`: what a drain does to the rhythm
* `Console.Paced.event`, `Console.Paced.drain`: events and drains keep it
* `Console.paced_after`: every run keeps it
* `Console.runs_in_rhythm`: what every drain runs
-/

namespace StatusPanel.Console

/-! ## The past of a console -/

/-- The time at which a chore ran last in a record. -/
def lastRun (chore : Chore) (record : List Happening) : Option Nat :=
  record.foldl (fun last h => if h.cause = .chore chore then some h.time else last) none

/-- Whether the bars are wanted after a record: a key was handled, and they did not run since. -/
def barsWanted (record : List Happening) : Bool :=
  record.foldl (fun wanted h =>
    match h.cause with
    | .event (.key _) => true
    | .chore .barRedraw => false
    | _ => wanted) false

/-- The time of a drain. -/
def Moment.drainTime? (m : Moment) : Option Nat :=
  match m.deed with
  | .event _ _ => none
  | .drain _ => some m.time

/-- The times of the drains. -/
def drainTimes (moments : List Moment) : List Nat := moments.filterMap Moment.drainTime?

/-- Whether the drains come in order, each less than half a turn of the clock after the one before.
The events may come at any times. -/
def Regular (moments : List Moment) : Prop :=
  (drainTimes moments).IsChain fun last next => last ≤ next ∧ next < last + halfTurn

instance (moments : List Moment) : Decidable (Regular moments) :=
  inferInstanceAs (Decidable (List.IsChain _ _))

section

variable {S ι : Type} [Surface S ι] {capacity : Nat}

/-- The time from which the interval of a chore counts: its last run, or else the first drain. -/
def countsFrom (k : Console S ι capacity) (chore : Chore) (moments : List Moment) : Option Nat :=
  (lastRun chore (k.record moments)).or (drainTimes moments).head?

/-- When the chores fall due after some things were done. As long as no interval counts, both would
count from now on. -/
def rhythm (k : Console S ι capacity) (settings : Settings) (moments : List Moment) (now : Nat) :
    Timetable where
  check := (k.countsFrom .idleCheck moments).getD now + (interval settings .idleCheck).toNat
  redraw := (k.countsFrom .barRedraw moments).getD now + (interval settings .barRedraw).toNat
  soon := barsWanted (k.record moments)

/-! ### One thing more -/

theorem after_concat (k : Console S ι capacity) (moments : List Moment) (m : Moment) :
    k.after (moments ++ [m]) = (k.after moments).pass m := by
  rw [after, after, List.foldl_append]
  rfl

theorem record_concat (k : Console S ι capacity) (moments : List Moment) (m : Moment) :
    k.record (moments ++ [m]) = k.record moments ++ (k.after moments).happenings m := by
  induction moments generalizing k with
  | nil => exact List.append_nil _
  | cons first rest ih =>
    rw [List.cons_append, record, record, ih, List.append_assoc]
    rfl

theorem drainTimes_event (moments : List Moment) (time : Nat) (event : Event) (status : Status) :
    drainTimes (moments ++ [⟨time, .event event status⟩]) = drainTimes moments := by
  rw [drainTimes, List.filterMap_append]
  exact List.append_nil _

theorem drainTimes_drain (moments : List Moment) (time : Nat) (status : Status) :
    drainTimes (moments ++ [⟨time, .drain status⟩]) = drainTimes moments ++ [time] := by
  rw [drainTimes, List.filterMap_append]
  rfl

/-- An event leaves the intervals of the chores as they count. -/
theorem countsFrom_event (k : Console S ι capacity) (moments : List Moment) (time : Nat)
    (event : Event) (status : Status) (chore : Chore) :
    k.countsFrom chore (moments ++ [⟨time, .event event status⟩]) =
      k.countsFrom chore moments := by
  rw [countsFrom, drainTimes_event, record_concat, lastRun, List.foldl_append]
  rfl

theorem barsWanted_event (k : Console S ι capacity) (moments : List Moment) (time : Nat)
    (event : Event) (status : Status) :
    barsWanted (k.record (moments ++ [⟨time, .event event status⟩])) =
      match event with
      | .key _ => true
      | _ => barsWanted (k.record moments) := by
  rw [record_concat, barsWanted, List.foldl_append]
  cases event <;> rfl

/-- The rhythm after an event. -/
theorem rhythm_event (k : Console S ι capacity) (settings : Settings) (moments : List Moment)
    (time : Nat) (event : Event) (status : Status) (now : Nat) :
    k.rhythm settings (moments ++ [⟨time, .event event status⟩]) now =
      (k.rhythm settings moments now).handle event := by
  rw [rhythm, countsFrom_event, countsFrom_event, barsWanted_event]
  cases event <;> rfl

theorem foldl_lastRun_choreRecord (chore : Chore) (status : Status) (time : Nat)
    (c : Controller S ι) (runs : List ChoreRun) (last : Option Nat) :
    (choreRecord status time c runs).foldl
        (fun last h => if h.cause = .chore chore then some h.time else last) last =
      if chore ∈ runs.map ChoreRun.chore then some time else last := by
  -- Induction on the runs: whichever of them is the chore's, it ran at this time.
  induction runs generalizing c last with
  | nil => rfl
  | cons run rest ih =>
    rw [choreRecord, List.foldl_cons, ih, List.map_cons]
    dsimp only
    by_cases hrest : chore ∈ rest.map ChoreRun.chore
    · rw [if_pos hrest, if_pos (List.mem_cons_of_mem _ hrest)]
    · by_cases hrun : run.chore = chore
      · rw [if_neg hrest, if_pos (congrArg Cause.chore hrun), if_pos (hrun ▸ List.mem_cons_self)]
      · have hcause : Cause.chore run.chore ≠ .chore chore := fun h => hrun (Cause.chore.inj h)
        have hnot : chore ∉ run.chore :: rest.map ChoreRun.chore := by
          rw [List.mem_cons, not_or]
          exact ⟨fun h => hrun h.symm, hrest⟩
        rw [if_neg hrest, if_neg hcause, if_neg hnot]

theorem foldl_barsWanted_choreRecord (status : Status) (time : Nat) (c : Controller S ι)
    (runs : List ChoreRun) (wanted : Bool) :
    (choreRecord status time c runs).foldl (fun wanted h =>
        match h.cause with
        | .event (.key _) => true
        | .chore .barRedraw => false
        | _ => wanted) wanted =
      if .barRedraw ∈ runs.map ChoreRun.chore then false else wanted := by
  induction runs generalizing c wanted with
  | nil => rfl
  | cons run rest ih =>
    rw [choreRecord, List.foldl_cons, ih, List.map_cons]
    dsimp only
    cases hrun : run.chore with
    | idleCheck => simp
    | barRedraw => simp

/-- A drain lets the interval of a chore that it runs count from now on, and the first drain lets
the interval of every chore count. -/
theorem countsFrom_drain (k : Console S ι capacity) (moments : List Moment) (time : Nat)
    (status : Status) (chore : Chore) :
    k.countsFrom chore (moments ++ [⟨time, .drain status⟩]) =
      if chore ∈ ((k.after moments).drain status (UInt32.ofNat time)
          (k.after moments).agenda.size).runs.map ChoreRun.chore then some time
      else some ((k.countsFrom chore moments).getD time) := by
  rw [countsFrom, drainTimes_drain, record_concat, lastRun, List.foldl_append, ← lastRun]
  have hhappenings : (k.after moments).happenings ⟨time, .drain status⟩ =
      choreRecord status time (k.after moments).controller ((k.after moments).drain status
        (UInt32.ofNat time) (k.after moments).agenda.size).runs := rfl
  rw [hhappenings, foldl_lastRun_choreRecord, List.head?_append]
  split
  · rfl
  · rw [countsFrom, ← Option.or_assoc]
    cases (lastRun chore (k.record moments)).or (drainTimes moments).head? <;> rfl

theorem barsWanted_drain (k : Console S ι capacity) (moments : List Moment) (time : Nat)
    (status : Status) :
    barsWanted (k.record (moments ++ [⟨time, .drain status⟩])) =
      if .barRedraw ∈ ((k.after moments).drain status (UInt32.ofNat time)
          (k.after moments).agenda.size).runs.map ChoreRun.chore then false
      else barsWanted (k.record moments) := by
  rw [record_concat, barsWanted, List.foldl_append, ← barsWanted]
  exact foldl_barsWanted_choreRecord ..

/-! ## Consoles that keep the rhythm -/

variable {settings : Settings} {k : Console S ι capacity} {moments : List Moment}

/-- A console whose agenda keeps the rhythm: a look at the clock, whenever it is, finds the chores
at their times. What counts began at the last drain or before, but less than an interval ago. -/
structure Paced (settings : Settings) (k : Console S ι capacity) (moments : List Moment) :
    Prop where
  staffed : Staffed settings (k.after moments).controller (k.after moments).agenda
  entries (now : Nat) : ((k.after moments).agenda.anchor (UInt32.ofNat now)).entries =
    (k.rhythm settings moments now).appointments.map Appointment.wrap
  recent {chore : Chore} {origin : Nat} : k.countsFrom chore moments = some origin →
    ∃ last, (drainTimes moments).getLast? = some last ∧
      origin ≤ last ∧ last < origin + (interval settings chore).toNat

/-- After a boot no interval counts. -/
theorem paced_boot (hcapacity : 2 ≤ capacity) (surface : S) (settings : Settings) (born : UInt32)
    (loader : Asset → Option ι) (status : Status) (now : UInt32) :
    Paced settings ((start surface settings born : Console S ι capacity).boot loader status now)
      [] where
  staffed := staffed_boot hcapacity surface settings born loader status now
  entries later := by
    have hentries := entries_boot hcapacity surface settings born loader status now
    show List.map _ _ = _
    rw [after, List.foldl_nil, hentries]
    simp [Entry.anchor, Due.time, Timetable.appointments, Appointment.wrap, Appointment.Date.wrap,
      rhythm, countsFrom, barsWanted, lastRun, record, drainTimes]
  recent h := nomatch h

namespace Paced

/-- An event that is handled changes the agenda of a key only. -/
theorem agenda_handle (h : Paced settings k moments)
    (hlive : (k.after moments).controller.shutDown = false) (event : Event) (status : Status)
    (now : UInt32) :
    ((k.after moments).handle event status now).agenda =
      match event with
      | .key _ => (k.after moments).agenda.wantSoon 1
      | _ => (k.after moments).agenda := by
  have hbar : (k.after moments).controller.barToken = some 1 :=
    congrArg Controller.Terms.barToken h.staffed.terms
  have hsnd := (k.after moments).controller.snd_handle (k.after moments).agenda event status now
  rw [hlive, hbar] at hsnd
  refine (congrArg Prod.fst hsnd).trans ?_
  cases event <;> rfl

/-- **Events keep the rhythm**, whenever they come. -/
theorem event (h : Paced settings k moments)
    (hlive : (k.after moments).controller.shutDown = false) (time : Nat) (event : Event)
    (status : Status) : Paced settings k (moments ++ [⟨time, .event event status⟩]) where
  staffed := by
    rw [after_concat]
    exact h.staffed.handle event status _
  entries now := by
    have hpass : (k.after (moments ++ [⟨time, .event event status⟩])).agenda =
        ((k.after moments).handle event status (UInt32.ofNat time)).agenda := by
      rw [after_concat]
      rfl
    rw [hpass, h.agenda_handle hlive, rhythm_event]
    cases event with
    | key pressed =>
      show (((k.after moments).agenda.wantSoon 1).anchor _).entries = _
      rw [Agenda.anchor_wantSoon]
      show changeFirst _ _ _ = _
      rw [h.entries]
      rfl
    | _ => exact h.entries now
  recent hfrom := by
    rw [countsFrom_event] at hfrom
    rw [drainTimes_event]
    exact h.recent hfrom

/-- At a drain that comes in time, the chores are due within half a turn of the clock or have been
for less. -/
theorem near (h : Paced settings k moments)
    (hbrief : ∀ chore, interval settings chore ≤ 0x80000000) {now : Nat}
    (hnow : ∀ last ∈ (drainTimes moments).getLast?, last ≤ now ∧ now < last + halfTurn) :
    ∀ p ∈ (k.rhythm settings moments now).appointments, p.Near now := by
  have hturn : (0x80000000 : UInt32).toNat = halfTurn := rfl
  -- what counts began at the last drain or before, and that drain was less than half a turn ago
  have hchore : ∀ chore,
      (k.countsFrom chore moments).getD now + (interval settings chore).toNat ≤ now + halfTurn ∧
      now < (k.countsFrom chore moments).getD now + (interval settings chore).toNat + halfTurn := by
    intro chore
    have hinterval := UInt32.le_iff_toNat_le.1 (hbrief chore)
    have hpos := UInt32.lt_iff_toNat_lt.1 (pos_interval settings chore)
    cases hfrom : k.countsFrom chore moments with
    | none =>
      rw [Option.getD_none]
      omega
    | some origin =>
      obtain ⟨last, hlast, hle, hlt⟩ := h.recent hfrom
      obtain ⟨hbefore, hsoon⟩ := hnow last hlast
      rw [Option.getD_some]
      omega
  intro p hp
  rcases List.mem_cons.1 hp with rfl | hp
  · exact ⟨(hchore .idleCheck).1, (hchore .idleCheck).2⟩
  · obtain rfl := List.mem_singleton.1 hp
    exact ⟨(hchore .barRedraw).1, (hchore .barRedraw).2⟩

section Drain

variable (h : Paced settings k moments)
  (hbrief : ∀ chore, interval settings chore ≤ 0x80000000) {now : Nat}
  (hnow : ∀ last ∈ (drainTimes moments).getLast?, last ≤ now ∧ now < last + halfTurn)

include h hbrief hnow

/-- A drain makes the idle check that is due, and no other. -/
theorem idleCheck_mem_runs_iff (status : Status) :
    .idleCheck ∈ ((k.after moments).drain status (UInt32.ofNat now)
        (k.after moments).agenda.size).runs.map ChoreRun.chore ↔
      (k.rhythm settings moments now).check ≤ now := by
  have hruns := mem_runs_iff h.staffed hbrief (h.entries now) (h.near hbrief hnow) status .idleCheck
  simpa [Timetable.appointments, Appointment.deadline] using hruns

/-- A drain redraws the bars that are due or wanted, and only then. -/
theorem barRedraw_mem_runs_iff (status : Status) :
    .barRedraw ∈ ((k.after moments).drain status (UInt32.ofNat now)
        (k.after moments).agenda.size).runs.map ChoreRun.chore ↔
      (k.rhythm settings moments now).soon = true ∨
        (k.rhythm settings moments now).redraw ≤ now := by
  have hruns := mem_runs_iff h.staffed hbrief (h.entries now) (h.near hbrief hnow) status .barRedraw
  simpa [Timetable.appointments, Appointment.deadline] using hruns

/-- The rhythm after a drain, whenever the clock is looked at. -/
theorem rhythm_drain (status : Status) (later : Nat) :
    k.rhythm settings (moments ++ [⟨now, .drain status⟩]) later =
      (k.rhythm settings moments now).settle settings now := by
  have hidle := h.idleCheck_mem_runs_iff hbrief hnow status
  have hbar := h.barRedraw_mem_runs_iff hbrief hnow status
  rw [rhythm, countsFrom_drain, countsFrom_drain, barsWanted_drain, Timetable.settle]
  simp only [hidle, hbar]
  congr 1
  · split <;> rfl
  · split <;> rfl
  · -- bars that are wanted are redrawn
    split
    case isTrue => rfl
    case isFalse hnot => exact Bool.eq_false_iff.2 (not_or.1 hnot).1

/-- **Drains keep the rhythm**, if they come less than half a turn of the clock apart. -/
theorem drain (hlive : (k.after moments).controller.shutDown = false) (status : Status) :
    Paced settings k (moments ++ [⟨now, .drain status⟩]) where
  staffed := by
    rw [after_concat]
    exact h.staffed.drain status _ _
  entries later := by
    have hentries := entries_settle h.staffed hlive hbrief (h.entries now) (h.near hbrief hnow)
      status
    rw [map_attend_appointments] at hentries
    rw [after_concat, h.rhythm_drain hbrief hnow]
    exact ((Agenda.started_of_wrap hentries).anchor_eq _).trans hentries
  recent {chore origin} hfrom := by
    have hpos := UInt32.lt_iff_toNat_lt.1 (pos_interval settings chore)
    refine ⟨now, by rw [drainTimes_drain, List.getLast?_concat], ?_⟩
    rw [countsFrom_drain] at hfrom
    split at hfrom
    case isTrue =>
      obtain rfl := Option.some.inj hfrom
      omega
    case isFalse hnot =>
      -- a chore that did not run is not due
      have hdue :
          ¬(k.countsFrom chore moments).getD now + (interval settings chore).toNat ≤ now := by
        cases chore with
        | idleCheck => exact mt (h.idleCheck_mem_runs_iff hbrief hnow status).2 hnot
        | barRedraw =>
          exact (not_or.1 (mt (h.barRedraw_mem_runs_iff hbrief hnow status).2 hnot)).2
      obtain rfl := Option.some.inj hfrom
      refine ⟨?_, by omega⟩
      cases hbefore : k.countsFrom chore moments with
      | none => exact Nat.le_refl _
      | some origin =>
        obtain ⟨last, hlast, hle, -⟩ := h.recent hbefore
        exact Nat.le_trans hle (hnow last hlast).1

end Drain

end Paced

/-! ## Runs -/

theorem regular_drain {now : Nat} {status : Status}
    (h : Regular (moments ++ [⟨now, .drain status⟩])) :
    ∀ last ∈ (drainTimes moments).getLast?, last ≤ now ∧ now < last + halfTurn := by
  rw [Regular, drainTimes_drain, List.isChain_append] at h
  intro last hlast
  exact h.2.2 last hlast now rfl

theorem Regular.left {later : List Moment} (h : Regular (moments ++ later)) : Regular moments := by
  rw [Regular, drainTimes, List.filterMap_append] at h
  exact List.IsChain.left_of_append h

/-- Until a shutdown is handled, the console is not shut down. -/
theorem live_after (hlive : k.controller.shutDown = false)
    (hnone : ∀ m ∈ moments, ∀ status, m.deed ≠ .event .shutdown status) :
    (k.after moments).controller.shutDown = false := by
  induction moments generalizing k with
  | nil => exact hlive
  | cons m rest ih =>
    obtain ⟨hfirst, hrest⟩ := List.forall_mem_cons.1 hnone
    refine ih ?_ hrest
    obtain ⟨time, ⟨event, status⟩ | status⟩ := m
    · show (k.handle event status _).controller.shutDown = false
      rw [controller_handle, Controller.shutDown_handle, hlive, Bool.false_or, beq_eq_false_iff_ne]
      rintro rfl
      exact hfirst status rfl
    · exact (shutDown_settle ..).trans hlive

/-- **Every run keeps the rhythm**, until a shutdown. -/
theorem paced_after (hboot : Paced settings k []) (hlive : k.controller.shutDown = false)
    (hbrief : ∀ chore, interval settings chore ≤ 0x80000000) (hregular : Regular moments)
    (hnone : ∀ m ∈ moments, ∀ status, m.deed ≠ .event .shutdown status) :
    Paced settings k moments := by
  -- Induction on what was done, from the last thing on.
  induction moments using List.reverseRecOn with
  | nil => exact hboot
  | append_singleton moments m ih =>
    have hbefore : ∀ m ∈ moments, ∀ status, m.deed ≠ .event .shutdown status :=
      fun m hm => hnone m (List.mem_append_left _ hm)
    have hpaced := ih hregular.left hbefore
    have hstill := live_after hlive hbefore
    obtain ⟨time, ⟨event, status⟩ | status⟩ := m
    · exact hpaced.event hstill time event status
    · exact hpaced.drain hbrief (regular_drain hregular) hstill status

omit [Surface S ι] in
/-- What counts from a time or, as long as nothing counts, from now on, is over now only if it
counts. -/
theorem getD_add_le_iff {origin? : Option Nat} {now wait : Nat} (hpos : 0 < wait) :
    origin?.getD now + wait ≤ now ↔ ∃ origin, origin? = some origin ∧ origin + wait ≤ now := by
  cases origin? with
  | none =>
    rw [Option.getD_none]
    constructor
    · intro hle
      omega
    · rintro ⟨_, h, -⟩
      cases h
  | some origin => simp

/-- **The rhythm of the chores.** Take a console that was booted, with intervals of at least one and
at most half a turn of the clock. Let it handle events at any times, and drain its chores at times
that do not go back, each less than half a turn after the one before. Until a shutdown is handled,
its agenda holds the idle check and the bar redraw, once each and with the tokens of the controller.
A drain comes to its end and runs each chore at most once. It runs the idle check exactly if one
interval is over since the last one, or since the first drain if there was none. It redraws the bars
exactly if one interval is over since they were redrawn, or since the first drain if they were not,
or a key was handled since they were redrawn, or since the boot. -/
theorem runs_in_rhythm (hcapacity : 2 ≤ capacity) (surface : S) (settings : Settings)
    (born : UInt32) (loader : Asset → Option ι) (status : Status) (booted : UInt32)
    (hcheck : 0 < settings.timing.checkInterval ∧ settings.timing.checkInterval ≤ 0x80000000)
    (hbar : 0 < settings.timing.barInterval ∧ settings.timing.barInterval ≤ 0x80000000)
    {k : Console S ι capacity} (hk : k = (start surface settings born).boot loader status booted)
    {earlier later : List Moment} (hregular : Regular (earlier ++ later))
    (hnone : ∀ m ∈ earlier, ∀ status, m.deed ≠ .event .shutdown status) :
    ((k.after earlier).controller.idleToken = some 0 ∧
      (k.after earlier).controller.barToken = some 1 ∧
      (k.after earlier).agenda.labels = [(0, .idleCheck), (1, .barRedraw)]) ∧
    ∀ now status rest, later = ⟨now, .drain status⟩ :: rest →
      let drained := (k.after earlier).drain status (UInt32.ofNat now) (k.after earlier).agenda.size
      drained.finished = true ∧ (drained.runs.map ChoreRun.chore).Nodup ∧
      (.idleCheck ∈ drained.runs.map ChoreRun.chore ↔
        ∃ origin, k.countsFrom .idleCheck earlier = some origin ∧
          origin + settings.timing.checkInterval.toNat ≤ now) ∧
      (.barRedraw ∈ drained.runs.map ChoreRun.chore ↔
        (∃ origin, k.countsFrom .barRedraw earlier = some origin ∧
          origin + settings.timing.barInterval.toNat ≤ now) ∨
        barsWanted (k.record earlier) = true) := by
  have hidle : interval settings .idleCheck = settings.timing.checkInterval :=
    max_one_of_pos hcheck.1
  have hredraw : interval settings .barRedraw = settings.timing.barInterval :=
    max_one_of_pos hbar.1
  have hbrief (chore : Chore) : interval settings chore ≤ 0x80000000 := by
    cases chore with
    | idleCheck => exact hidle ▸ hcheck.2
    | barRedraw => exact hredraw ▸ hbar.2
  have hboot : Paced settings k [] :=
    hk ▸ paced_boot hcapacity surface settings born loader status booted
  have hbooted : k.controller.shutDown = false := hk ▸ Controller.shutDown_boot ..
  have hpaced := paced_after hboot hbooted hbrief hregular.left hnone
  have hterms := hpaced.staffed.terms
  refine ⟨⟨congrArg Controller.Terms.idleToken hterms, congrArg Controller.Terms.barToken hterms,
    hpaced.staffed.full (live_after hbooted hnone)⟩, ?_⟩
  rintro now status rest rfl drained
  have hnow : ∀ last ∈ (drainTimes earlier).getLast?, last ≤ now ∧ now < last + halfTurn := by
    have hfirst : Regular ((earlier ++ [⟨now, .drain status⟩]) ++ rest) := by
      rwa [List.append_assoc]
    exact regular_drain hfirst.left
  obtain ⟨hfinished, -, hnodup, -⟩ := hpaced.staffed.drain_of_rests (hpaced.staffed.rests hbrief)
    status (UInt32.ofNat now) (Nat.le_refl _)
  refine ⟨hfinished, hnodup, ?_, ?_⟩
  · refine (hpaced.idleCheck_mem_runs_iff hbrief hnow status).trans ?_
    rw [← hidle]
    exact getD_add_le_iff (UInt32.lt_iff_toNat_lt.1 (pos_interval settings .idleCheck))
  · refine (hpaced.barRedraw_mem_runs_iff hbrief hnow status).trans ?_
    rw [or_comm, ← hredraw]
    exact or_congr_left
      (getD_add_le_iff (UInt32.lt_iff_toNat_lt.1 (pos_interval settings .barRedraw)))

end

/-- What is done to the drowsy console up to its key and the turn of the clock. -/
def drowsyTurn : List Moment := drowsyKey ++ drainsAt [4294967296]

/-- The drain at the turn of the clock makes the idle check, whose interval counts from the second
drain, and redraws the bars on account of the key, though their interval is not over. -/
theorem runs_in_rhythm_rollover :
    Regular drowsyTurn ∧ (drowsyBoot.after drowsyKey).agenda.labels =
        [(0, .idleCheck), (1, .barRedraw)] ∧
      drowsyBoot.countsFrom .idleCheck drowsyKey = some 4294967256 ∧
      drowsyBoot.countsFrom .barRedraw drowsyKey = some 4294967236 ∧
      let runs := ((drowsyBoot.after drowsyKey).drain (.boot .initial) (UInt32.ofNat 4294967296)
        (drowsyBoot.after drowsyKey).agenda.size).runs
      .idleCheck ∈ runs.map ChoreRun.chore ∧ .barRedraw ∈ runs.map ChoreRun.chore := by
  have hboot : drowsyBoot =
      (start {} drowsySettings 0).boot some (.boot .initial) (UInt32.ofNat 4294967236) := by
    rw [drowsyBoot]
  have hregular : Regular (drowsyKey ++ drainsAt [4294967296]) := by decide +kernel
  have hnone : ∀ m ∈ drowsyKey, ∀ status, m.deed ≠ .event .shutdown status := by
    simp [drowsyKey, drainsAt]
  obtain ⟨⟨-, -, hlabels⟩, hdrains⟩ :=
    runs_in_rhythm (by decide) ({} : Recorder) drowsySettings 0 some
    (.boot .initial) (UInt32.ofNat 4294967236) (by decide) (by decide) hboot hregular hnone
  obtain ⟨-, -, hidle, hbar⟩ := hdrains 4294967296 (.boot .initial) [] rfl
  have hcheck : drowsyBoot.countsFrom .idleCheck drowsyKey = some 4294967256 := by decide +kernel
  have hredraw : drowsyBoot.countsFrom .barRedraw drowsyKey = some 4294967236 := by decide +kernel
  have hwanted : barsWanted (drowsyBoot.record drowsyKey) = true := by decide +kernel
  have hover : 4294967256 + drowsySettings.timing.checkInterval.toNat ≤ 4294967296 := by
    have hinterval : drowsySettings.timing.checkInterval.toNat = 20 := rfl
    omega
  exact ⟨hregular, hlabels, hcheck, hredraw, hidle.2 ⟨_, hcheck, hover⟩, hbar.2 (Or.inr hwanted)⟩

/-- A console with the standard settings, booted at time 0. -/
def standardBoot : Console Recorder Asset 2 :=
  (start {} {} 0).boot some (.boot .initial) (UInt32.ofNat 0)

/-- A drain at the boot, and an event almost half a turn of the clock later. -/
def longGap : List Moment :=
  drainsAt [0] ++ [⟨2147483647, .event (.layers ⟨4⟩) (.boot .initial)⟩]

/-- An event in between does not do for a drain: half a turn of the clock after both chores fell due
they do not look due any more, and a drain that comes then runs neither of them. -/
theorem not_runs_in_rhythm_longGap :
    ((longGap ++ drainsAt [2147484648]).map Moment.time).IsChain
        (fun last next => last ≤ next ∧ next < last + halfTurn) ∧
      (standardBoot.after longGap).controller.shutDown = false ∧
      standardBoot.countsFrom .idleCheck longGap = some 0 ∧
      0 + ({} : Settings).timing.checkInterval.toNat ≤ 2147484648 ∧
      ((standardBoot.after longGap).drain (.boot .initial) (UInt32.ofNat 2147484648)
        (standardBoot.after longGap).agenda.size).runs = [] := by
  refine ⟨?_, ?_, ?_, ?_, ?_⟩
  all_goals decide +kernel

end StatusPanel.Console
