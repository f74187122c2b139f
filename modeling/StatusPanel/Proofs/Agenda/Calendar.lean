import Mathlib.Data.List.MinMax
import StatusPanel.Proofs.Agenda.Tokens
import StatusPanel.Proofs.Word

/-!
# The agenda on a clock that does not wrap

A calendar is an agenda whose times are natural numbers. The agenda sees the time on 32 bits only,
and a time counts as reached for half a turn of the clock after it. As long as no delay is longer
than half a turn, and the clock is looked at before an entry is overdue for half a turn, nobody can
tell the two apart: an agenda that is asked at the wrapped times gives the answers of the calendar.

## Main definitions

* `Appointment`, `Calendar`: an entry and an agenda with times that do not wrap
* `Calendar.Ask`, `Calendar.answer`, `Calendar.after`: what is asked at a time, and what follows
* `Appointment.wrap`: the entry of an agenda that stands for an appointment
* `Calendar.Timely`: no appointment is overdue for half a turn when the clock is looked at

## Main results

* `Calendar.Tracks.serve`: an agenda tracks a calendar through everything that is asked
* `Calendar.answers_eq`: an agenda gives the answers of the calendar
-/

namespace StatusPanel

/-- Half a turn of the clock, in milliseconds. -/
def halfTurn : Nat := 0x80000000

/-! ## Calendars -/

/-- When an appointment is. -/
inductive Appointment.Date
  /-- A delay after the next look at the clock. -/
  | waiting (delay : Nat)
  /-- At a time. -/
  | fixed (time : Nat)
  deriving DecidableEq, Repr

/-- A registered chore, on a clock that does not wrap. -/
structure Appointment where
  token : Token
  chore : Chore
  /-- Whether the chore is due whatever the clock says. -/
  soon : Bool
  date : Appointment.Date
  deriving DecidableEq, Repr

namespace Appointment

/-- The time of falling due when the clock is looked at now. -/
def deadline (p : Appointment) (now : Nat) : Nat :=
  match p.date with
  | .waiting delay => now + delay
  | .fixed time => time

/-- The appointment after a look at the clock. -/
def anchor (p : Appointment) (now : Nat) : Appointment := { p with date := .fixed (p.deadline now) }

/-- The time until the chore is to run. -/
def wait (p : Appointment) (now : Nat) : Nat :=
  if p.soon = true ∨ p.deadline now ≤ now then 0 else p.deadline now - now

/-- The appointment after a run that ended now. -/
def rearm (p : Appointment) (delay now : Nat) : Appointment :=
  { p with soon := false, date := .fixed (now + delay) }

end Appointment

/-- An agenda on a clock that does not wrap. -/
structure Calendar where
  /-- The chores, in order of registration. -/
  appointments : List Appointment := []
  /-- The token of the next registration. -/
  nextToken : Token := 0

namespace Calendar

/-- What is asked of a calendar at a time. -/
inductive Ask
  | register (chore : Chore) (delay : UInt32)
  | wantSoon (token : Token)
  | poll
  | nextDeadline
  | complete (token : Token) (rearm : Rearm)

/-- What is answered. -/
inductive Answer
  | nothing
  /-- The token of a registration, if the table was not full. -/
  | registered (token : Option Token)
  /-- The chore to be run now. -/
  | due (chore : Option (Token × Chore))
  /-- The time until a chore is to run. -/
  | wait (time : Option Nat)
  deriving DecidableEq, Repr

/-- Registers a chore, unless so many are registered as there is room for. -/
def register (c : Calendar) (capacity : Nat) (chore : Chore) (delay : Nat) :
    Calendar × Option Token :=
  if c.appointments.length = capacity then (c, none)
  else
    ({ appointments := c.appointments ++ [⟨c.nextToken, chore, false, .waiting delay⟩]
       nextToken := c.nextToken + 1 }, some c.nextToken)

/-- Makes the chore of a token due at once. -/
def wantSoon (c : Calendar) (token : Token) : Calendar :=
  { c with
    appointments :=
      changeFirst (·.token == token) (fun p => { p with soon := true }) c.appointments }

/-- The calendar after a look at the clock. -/
def anchor (c : Calendar) (now : Nat) : Calendar :=
  { c with appointments := c.appointments.map (·.anchor now) }

/-- The appointment to keep now: the first that is wanted soon, else of those whose deadline is
reached one with the earliest deadline, and of these the one that was registered last. -/
def pick (c : Calendar) (now : Nat) : Option Appointment :=
  match c.appointments.find? (·.soon) with
  | some p => some p
  | none =>
    (c.appointments.filter (·.deadline now ≤ now)).reverse.argmin (·.deadline now)

/-- The calendar after a run that ended now. -/
def complete (c : Calendar) (token : Token) (rearm : Rearm) (now : Nat) : Calendar :=
  match rearm with
  | .after delay =>
    { c with
      appointments :=
        changeFirst (·.token == token) (·.rearm delay.toNat now) c.appointments }
  | .cancel => { c with appointments := c.appointments.eraseP (·.token == token) }

/-- The answer to what is asked now. -/
def answer (c : Calendar) (capacity now : Nat) : Ask → Answer
  | .register chore delay => .registered (c.register capacity chore delay.toNat).2
  | .wantSoon _ => .nothing
  | .poll => .due (((c.anchor now).pick now).map fun p => (p.token, p.chore))
  | .nextDeadline => .wait ((c.anchor now).appointments.map (·.wait now)).min?
  | .complete _ _ => .nothing

/-- The calendar after what is asked now. -/
def serve (c : Calendar) (capacity now : Nat) : Ask → Calendar
  | .register chore delay => (c.register capacity chore delay.toNat).1
  | .wantSoon token => c.wantSoon token
  | .poll => c.anchor now
  | .nextDeadline => c.anchor now
  | .complete token rearm => c.complete token rearm now

/-- The calendar after what is asked at some times. -/
def after (c : Calendar) (capacity : Nat) (asks : List (Nat × Ask)) : Calendar :=
  asks.foldl (fun c ask => c.serve capacity ask.1 ask.2) c

/-- The answers to what is asked at some times. -/
def answers (c : Calendar) (capacity : Nat) : List (Nat × Ask) → List Answer
  | [] => []
  | (now, ask) :: rest =>
    c.answer capacity now ask :: (c.serve capacity now ask).answers capacity rest

end Calendar

/-! ## Agendas that are asked the same -/

/-- The request for what is asked when the clock shows a time. -/
def Calendar.Ask.request (ask : Ask) (now : UInt32) : Agenda.Request :=
  match ask with
  | .register chore delay => .register chore delay
  | .wantSoon token => .wantSoon token
  | .poll => .poll now
  | .nextDeadline => .nextDeadline now
  | .complete token rearm => .complete token rearm now

namespace Agenda

variable {capacity : Nat}

/-- The answer of an agenda to a request. -/
def answer (a : Agenda capacity) : Request → Calendar.Answer
  | .register chore delay => .registered (a.register chore delay).2
  | .wantSoon _ => .nothing
  | .poll now => .due (a.poll now).2
  | .nextDeadline now => .wait ((a.nextDeadline now).2.map UInt32.toNat)
  | .complete _ _ _ => .nothing

/-- The answers of an agenda to requests. -/
def answers (a : Agenda capacity) : List Request → List Calendar.Answer
  | [] => []
  | request :: rest => a.answer request :: (a.serve request).answers rest

end Agenda

/-! ## Wrapped appointments -/

/-- The time of falling due on the clock that wraps. -/
def Appointment.Date.wrap : Date → Due
  | .waiting delay => .waiting (UInt32.ofNat delay)
  | .fixed time => .fixed (UInt32.ofNat time)

namespace Appointment

/-- The entry of an agenda that stands for the appointment. -/
def wrap (p : Appointment) : Entry := ⟨p.token, p.chore, p.soon, p.date.wrap⟩

/-- Whether the deadline lies less than half a turn before now and at most half a turn after it. -/
structure Near (p : Appointment) (now : Nat) : Prop where
  ahead : p.deadline now ≤ now + halfTurn
  late : now < p.deadline now + halfTurn

theorem time_wrap (p : Appointment) (now : Nat) :
    p.wrap.due.time (UInt32.ofNat now) = UInt32.ofNat (p.deadline now) := by
  obtain ⟨_, _, _, delay | time⟩ := p
  · exact (UInt32.ofNat_add now delay).symm
  · rfl

theorem anchor_wrap (p : Appointment) (now : Nat) :
    p.wrap.anchor (UInt32.ofNat now) = (p.anchor now).wrap := by
  rw [Entry.anchor, time_wrap]
  rfl

theorem rearm_wrap (p : Appointment) (delay : UInt32) (now : Nat) :
    p.wrap.rearm delay (UInt32.ofNat now) = (p.rearm delay.toNat now).wrap := by
  simp only [Entry.rearm, rearm, wrap, Date.wrap, UInt32.ofNat_add, UInt32.ofNat_toNat]

section

variable {p : Appointment} {now : Nat} (h : p.Near now)

include h

theorem toNat_overdue_wrap (hdue : p.deadline now ≤ now) :
    (p.wrap.overdue (UInt32.ofNat now)).toNat = now - p.deadline now := by
  have hlate := h.late
  unfold halfTurn at hlate
  rw [Entry.overdue, time_wrap, UInt32.toNat_sub, UInt32.toNat_ofNat', UInt32.toNat_ofNat']
  omega

theorem isDue_wrap : p.wrap.isDue (UInt32.ofNat now) = decide (p.deadline now ≤ now) := by
  obtain ⟨hahead, hlate⟩ := h
  unfold halfTurn at hahead hlate
  rw [Entry.isDue, Entry.overdue, time_wrap, decide_eq_decide, UInt32.lt_iff_toNat_lt,
    UInt32.toNat_sub, UInt32.toNat_ofNat', UInt32.toNat_ofNat',
    show (0x80000000 : UInt32).toNat = 2147483648 from rfl]
  omega

theorem toNat_wait_wrap : (p.wrap.wait (UInt32.ofNat now)).toNat = p.wait now := by
  have hdue : (p.wrap.soon || p.wrap.isDue (UInt32.ofNat now)) = true ↔
      p.soon = true ∨ p.deadline now ≤ now := by
    rw [isDue_wrap h, Bool.or_eq_true, decide_eq_true_eq]
    rfl
  by_cases hnow : p.soon = true ∨ p.deadline now ≤ now
  · rw [Entry.wait, if_pos (hdue.2 hnow), wait, if_pos hnow]
    rfl
  · have hahead := h.ahead
    unfold halfTurn at hahead
    rw [Entry.wait, if_neg (mt hdue.1 hnow), wait, if_neg hnow, time_wrap, UInt32.toNat_sub,
      UInt32.toNat_ofNat', UInt32.toNat_ofNat']
    omega

end

/-- Of two appointments that are due, the one with the earlier deadline is overdue for longer. -/
theorem overdue_wrap_le_iff {p q : Appointment} {now : Nat} (hp : p.Near now) (hq : q.Near now)
    (hpdue : p.deadline now ≤ now) (hqdue : q.deadline now ≤ now) :
    p.wrap.overdue (UInt32.ofNat now) ≤ q.wrap.overdue (UInt32.ofNat now) ↔
      q.deadline now ≤ p.deadline now := by
  rw [UInt32.le_iff_toNat_le, toNat_overdue_wrap hp hpdue, toNat_overdue_wrap hq hqdue]
  omega

end Appointment

namespace Calendar

variable {capacity : Nat}

/-- The earlier one of an appointment and others, the last one of equals. -/
theorem argmin_reverse_cons {α : Type} (f : α → Nat) (a : α) (as : List α) :
    (a :: as).reverse.argmin f =
      match as.reverse.argmin f with
      | some b => if f a < f b then some a else some b
      | none => some a := by
  rw [List.reverse_cons, List.argmin_concat]
  cases as.reverse.argmin f <;> rfl

/-- Of two elements only one can be the least, the later one of equals. -/
theorem argmin_reverse_cons_cons {α : Type} (f : α → Nat) (a b : α) (as : List α) :
    (a :: b :: as).reverse.argmin f = ((if f b ≤ f a then b else a) :: as).reverse.argmin f := by
  rw [argmin_reverse_cons, argmin_reverse_cons, argmin_reverse_cons]
  cases as.reverse.argmin f with
  | none => grind
  | some c => grind

theorem longestOverdue_map_wrap {now : Nat} {p : Appointment} {ps : List Appointment}
    (hnear : ∀ q ∈ p :: ps, q.Near now) (hdue : ∀ q ∈ p :: ps, q.deadline now ≤ now) :
    Agenda.longestOverdue (UInt32.ofNat now) (some p.wrap) (ps.map Appointment.wrap) =
      ((p :: ps).reverse.argmin (·.deadline now)).map Appointment.wrap := by
  -- Induction on the appointments not looked at yet; `p` is the best one so far.
  induction ps generalizing p with
  | nil => rfl
  | cons q rest ih =>
    obtain ⟨hpnear, hnear⟩ := List.forall_mem_cons.1 hnear
    obtain ⟨hpdue, hdue⟩ := List.forall_mem_cons.1 hdue
    obtain ⟨hqnear, hrestnear⟩ := List.forall_mem_cons.1 hnear
    obtain ⟨hqdue, hrestdue⟩ := List.forall_mem_cons.1 hdue
    have hle := Appointment.overdue_wrap_le_iff hpnear hqnear hpdue hqdue
    rw [argmin_reverse_cons_cons, List.map_cons, Agenda.longestOverdue]
    by_cases h : q.deadline now ≤ p.deadline now
    · rw [if_pos (hle.2 h), if_pos h]
      exact ih hnear hdue
    · rw [if_neg (mt hle.1 h), if_neg h]
      exact ih (List.forall_mem_cons.2 ⟨hpnear, hrestnear⟩)
        (List.forall_mem_cons.2 ⟨hpdue, hrestdue⟩)

/-- An agenda picks the entry of the appointment that the calendar picks. -/
theorem pick_map_wrap {c : Calendar} {now : Nat} (hnear : ∀ p ∈ c.appointments, p.Near now) :
    Agenda.pick (c.appointments.map Appointment.wrap) (UInt32.ofNat now) =
      (c.pick now).map Appointment.wrap := by
  have hsoon : (c.appointments.map Appointment.wrap).find? (·.soon) =
      (c.appointments.find? (·.soon)).map Appointment.wrap := List.find?_map ..
  have hdue : (c.appointments.map Appointment.wrap).filter (·.isDue (UInt32.ofNat now)) =
      (c.appointments.filter (·.deadline now ≤ now)).map Appointment.wrap := by
    rw [List.filter_map]
    refine congrArg _ (List.filter_congr fun p hp => ?_)
    exact Appointment.isDue_wrap (hnear p hp)
  unfold Agenda.pick pick
  rw [hsoon, hdue]
  cases c.appointments.find? (·.soon) with
  | some p => rfl
  | none =>
    dsimp only [Option.map_none]
    have hmem : ∀ p ∈ c.appointments.filter (·.deadline now ≤ now),
        p.Near now ∧ p.deadline now ≤ now := by
      intro p hp
      obtain ⟨hp, hpdue⟩ := List.mem_filter.1 hp
      exact ⟨hnear p hp, of_decide_eq_true hpdue⟩
    generalize c.appointments.filter (·.deadline now ≤ now) = ps at hmem
    cases ps with
    | nil => rfl
    | cons p rest =>
      exact longestOverdue_map_wrap (fun q hq => (hmem q hq).1) fun q hq => (hmem q hq).2

/-- The least of some words is the least of their values. -/
theorem min?_map_toNat (words : List UInt32) :
    (words.map UInt32.toNat).min? = words.min?.map UInt32.toNat := by
  cases words with
  | nil => rfl
  | cons a rest =>
    rw [List.map_cons, List.min?_cons', List.min?_cons', Option.map_some, List.foldl_map]
    exact congrArg some (List.foldl_hom UInt32.toNat fun a b => (Word.toNat_min a b).symm)

/-! ## An agenda tracks a calendar -/

/-- Whether what is asked looks at the clock. -/
def Ask.looks : Ask → Bool
  | .poll | .nextDeadline => true
  | .register _ _ | .wantSoon _ | .complete _ _ => false

/-- Whether what is asked starts no delay that is longer than half a turn. -/
def Ask.Brief : Ask → Prop
  | .register _ delay | .complete _ (.after delay) => delay.toNat ≤ halfTurn
  | .wantSoon _ | .poll | .nextDeadline | .complete _ .cancel => True

/-- Whether no look at the clock finds an appointment that is overdue for half a turn. -/
def Timely (c : Calendar) (capacity : Nat) : List (Nat × Ask) → Prop
  | [] => True
  | (now, ask) :: rest =>
    (ask.looks = true → ∀ p ∈ c.appointments, now < p.deadline now + halfTurn) ∧
      (c.serve capacity now ask).Timely capacity rest

instance : DecidablePred Ask.Brief
  | .register _ delay | .complete _ (.after delay) =>
    inferInstanceAs (Decidable (delay.toNat ≤ halfTurn))
  | .wantSoon _ | .poll | .nextDeadline | .complete _ .cancel => isTrue trivial

instance decidableTimely (c : Calendar) (capacity : Nat) (asks : List (Nat × Ask)) :
    Decidable (c.Timely capacity asks) :=
  match asks with
  | [] => isTrue trivial
  | (now, ask) :: rest =>
    have := decidableTimely (c.serve capacity now ask) capacity rest
    inferInstanceAs (Decidable
      ((ask.looks = true → ∀ p ∈ c.appointments, now < p.deadline now + halfTurn) ∧
        (c.serve capacity now ask).Timely capacity rest))

/-- An agenda holds the entries of a calendar's appointments, none of which is far ahead of now. -/
structure Tracks (a : Agenda capacity) (c : Calendar) (now : Nat) : Prop where
  entries : a.entries = c.appointments.map Appointment.wrap
  nextToken : a.nextToken = c.nextToken
  ahead : ∀ p ∈ c.appointments, p.deadline now ≤ now + halfTurn

namespace Tracks

variable {a : Agenda capacity} {c : Calendar} {now : Nat}

theorem empty (now : Nat) : Tracks (.empty : Agenda capacity) {} now := ⟨rfl, rfl, nofun⟩

/-- Time passes, and no appointment gets farther ahead. -/
theorem mono (h : Tracks a c now) {later : Nat} (hle : now ≤ later) : Tracks a c later := by
  refine ⟨h.entries, h.nextToken, fun p hp => ?_⟩
  have hahead := h.ahead p hp
  unfold Appointment.deadline at hahead ⊢
  split at hahead <;> omega

theorem length_eq (h : Tracks a c now) : a.entries.length = c.appointments.length := by
  rw [h.entries, List.length_map]

theorem register (h : Tracks a c now) (chore : Chore) {delay : UInt32}
    (hbrief : delay.toNat ≤ halfTurn) :
    (a.register chore delay).2 = (c.register capacity chore delay.toNat).2 ∧
      Tracks (a.register chore delay).1 (c.register capacity chore delay.toNat).1 now := by
  have hle := a.length_le
  have hlength := h.length_eq
  unfold Agenda.register Calendar.register
  by_cases hfull : c.appointments.length = capacity
  · rw [dif_neg (by omega), if_pos hfull]
    exact ⟨rfl, h⟩
  · rw [dif_pos (by omega), if_neg hfull]
    refine ⟨congrArg some h.nextToken, ?_, congrArg (· + 1) h.nextToken, ?_⟩
    · dsimp only
      rw [h.entries, h.nextToken, List.map_append]
      simp [Appointment.wrap, Appointment.Date.wrap]
    · intro p hp
      rcases List.mem_append.1 hp with hp | hp
      · exact h.ahead p hp
      · obtain rfl := List.mem_singleton.1 hp
        exact Nat.add_le_add_left hbrief now

theorem complete (h : Tracks a c now) (token : Token) {rearm : Rearm}
    (hbrief : Ask.Brief (.complete token rearm)) :
    Tracks (a.complete token rearm (UInt32.ofNat now)) (c.complete token rearm now) now := by
  cases rearm with
  | after delay =>
    refine ⟨?_, h.nextToken, ?_⟩
    · show changeFirst _ _ a.entries = _
      rw [h.entries]
      exact changeFirst_map (fun _ => rfl) (fun p => p.rearm_wrap delay now) c.appointments
    · intro p hp
      rcases mem_changeFirst hp with hp | ⟨p, -, -, rfl⟩
      · exact h.ahead p hp
      · exact Nat.add_le_add_left hbrief now
  | cancel =>
    refine ⟨?_, h.nextToken, fun p hp => h.ahead p (List.mem_of_mem_eraseP hp)⟩
    show a.entries.eraseP _ = _
    rw [h.entries, List.eraseP_map]
    rfl

theorem wantSoon (h : Tracks a c now) (token : Token) :
    Tracks (a.wantSoon token) (c.wantSoon token) now := by
  refine ⟨?_, h.nextToken, ?_⟩
  · show changeFirst _ _ a.entries = (changeFirst _ _ c.appointments).map Appointment.wrap
    rw [h.entries]
    refine changeFirst_map (fun _ => ?_) (fun _ => ?_) c.appointments <;> rfl
  · intro q hq
    rcases mem_changeFirst hq with hq | ⟨p, hp, -, rfl⟩
    · exact h.ahead q hq
    · exact h.ahead p hp

theorem anchor (h : Tracks a c now) : Tracks (a.anchor (UInt32.ofNat now)) (c.anchor now) now := by
  refine ⟨?_, h.nextToken, ?_⟩
  · show a.entries.map _ = (c.appointments.map _).map _
    rw [h.entries, List.map_map, List.map_map]
    exact List.map_congr_left fun p _ => p.anchor_wrap now
  · intro q hq
    obtain ⟨p, hp, rfl⟩ := List.mem_map.1 hq
    exact h.ahead p hp

/-- A look at the clock in time finds the same chore due and the same time to wait. -/
theorem answer_look (h : Tracks a c now)
    (hlate : ∀ p ∈ c.appointments, now < p.deadline now + halfTurn) :
    a.answer (.poll (UInt32.ofNat now)) = c.answer capacity now .poll ∧
      a.answer (.nextDeadline (UInt32.ofNat now)) = c.answer capacity now .nextDeadline := by
  have hnear : ∀ p ∈ (c.anchor now).appointments, p.Near now := by
    intro q hq
    obtain ⟨p, hp, rfl⟩ := List.mem_map.1 hq
    exact ⟨h.ahead p hp, hlate p hp⟩
  have hanchored := h.anchor.entries
  constructor
  · have hpick := pick_map_wrap hnear
    rw [← hanchored] at hpick
    show Answer.due ((Agenda.pick _ _).map _) = Answer.due (((c.anchor now).pick now).map _)
    rw [hpick, Option.map_map]
    rfl
  · show Answer.wait ((List.min? _).map _) = Answer.wait (List.min? _)
    rw [hanchored, ← min?_map_toNat, List.map_map, List.map_map]
    refine congrArg (fun waits => Answer.wait (List.min? waits)) (List.map_congr_left ?_)
    exact fun p hp => Appointment.toNat_wait_wrap (hnear p hp)

/-- **One request.** An agenda that tracks a calendar answers what the calendar answers, and tracks
it further. -/
theorem serve (h : Tracks a c now) {ask : Ask} (hbrief : ask.Brief)
    (hlate : ask.looks = true → ∀ p ∈ c.appointments, now < p.deadline now + halfTurn) :
    a.answer (ask.request (UInt32.ofNat now)) = c.answer capacity now ask ∧
      Tracks (a.serve (ask.request (UInt32.ofNat now))) (c.serve capacity now ask) now := by
  cases ask with
  | register chore delay =>
    obtain ⟨htoken, hafter⟩ := h.register chore hbrief
    exact ⟨congrArg Answer.registered htoken, hafter⟩
  | wantSoon token => exact ⟨rfl, h.wantSoon token⟩
  | poll => exact ⟨(h.answer_look (hlate rfl)).1, h.anchor⟩
  | nextDeadline => exact ⟨(h.answer_look (hlate rfl)).2, h.anchor⟩
  | complete token rearm => exact ⟨rfl, h.complete token hbrief⟩

/-- An agenda that tracks a calendar answers what the calendar answers as long as it is asked in
time. -/
theorem answers (h : Tracks a c now) {asks : List (Nat × Ask)}
    (htimes : (now :: asks.map Prod.fst).Pairwise (· ≤ ·)) (hbrief : ∀ ask ∈ asks, ask.2.Brief)
    (htimely : c.Timely capacity asks) :
    a.answers (asks.map fun ask => ask.2.request (UInt32.ofNat ask.1)) =
        c.answers capacity asks ∧
      ∃ last, Tracks
        ((asks.map fun ask => ask.2.request (UInt32.ofNat ask.1)).foldl Agenda.serve a)
        (c.after capacity asks) last := by
  -- Induction on what is asked: the clock moves on to its time first.
  induction asks generalizing a c now with
  | nil => exact ⟨rfl, now, h⟩
  | cons ask rest ih =>
    obtain ⟨time, ask⟩ := ask
    obtain ⟨hlate, hrest⟩ := htimely
    obtain ⟨hask, hbrief⟩ := List.forall_mem_cons.1 hbrief
    obtain ⟨hnow, htimes⟩ := List.pairwise_cons.1 htimes
    obtain ⟨hanswer, hafter⟩ := (h.mono (hnow time (List.mem_cons_self ..))).serve hask hlate
    obtain ⟨hanswers, hlast⟩ := ih hafter htimes hbrief hrest
    exact ⟨List.cons_eq_cons.2 ⟨hanswer, hanswers⟩, hlast⟩

end Tracks

/-- **The clock that wraps.** Ask an agenda anything at any times that never go back, with no delay
longer than half a turn of the clock, and look at the clock before an entry is overdue for half a
turn. Then the agenda, which sees the times on 32 bits, gives the answers of the calendar, which
sees them in full, and its entries stand for the appointments of the calendar. -/
theorem answers_eq (capacity : Nat) (asks : List (Nat × Ask))
    (htimes : (asks.map Prod.fst).Pairwise (· ≤ ·)) (hbrief : ∀ ask ∈ asks, ask.2.Brief)
    (htimely : ({} : Calendar).Timely capacity asks) :
    let requests := asks.map fun ask => ask.2.request (UInt32.ofNat ask.1)
    (.empty : Agenda capacity).answers requests = ({} : Calendar).answers capacity asks ∧
      (requests.foldl Agenda.serve (.empty : Agenda capacity)).entries =
        (({} : Calendar).after capacity asks).appointments.map Appointment.wrap := by
  intro requests
  have hzero : (0 :: asks.map Prod.fst).Pairwise (· ≤ ·) :=
    List.pairwise_cons.2 ⟨fun _ _ => Nat.zero_le _, htimes⟩
  obtain ⟨hanswers, last, htracks⟩ := (Tracks.empty 0).answers hzero hbrief htimely
  exact ⟨hanswers, htracks.entries⟩

/-- Two chores that are registered 201 milliseconds before the clock wraps, and fall due after it
did. -/
def rollover : List (Nat × Ask) :=
  [(4294967095, .register .idleCheck 1000), (4294967095, .register .barRedraw 0x80000000),
    (4294967095, .register .barRedraw 250), (4294967095, .nextDeadline), (4294967295, .wantSoon 1),
    (4294967296, .poll), (4294967296, .complete 1 (.after 799)), (4294968094, .poll),
    (4294968095, .nextDeadline), (4294968095, .poll), (4294968095, .complete 1 .cancel),
    (4294968095, .poll), (4294968095, .complete 1 (.after 0))]

theorem answers_rollover :
    (rollover.map Prod.fst).Pairwise (· ≤ ·) ∧ (∀ ask ∈ rollover, ask.2.Brief) ∧
      ({} : Calendar).Timely 2 rollover ∧
      (.empty : Agenda 2).answers
          (rollover.map fun ask => ask.2.request (UInt32.ofNat ask.1)) =
        [.registered (some 0), .registered (some 1), .registered none, .wait (some 1000), .nothing,
          .due (some (1, .barRedraw)), .nothing, .due none, .wait (some 0),
          .due (some (1, .barRedraw)), .nothing, .due (some (0, .idleCheck)), .nothing] := by
  have htimes : (rollover.map Prod.fst).Pairwise (· ≤ ·) := by decide
  have hbrief : ∀ ask ∈ rollover, ask.2.Brief := by decide
  have htimely : ({} : Calendar).Timely 2 rollover := by decide
  refine ⟨htimes, hbrief, htimely, (answers_eq 2 rollover htimes hbrief htimely).1.trans ?_⟩
  decide

end Calendar

end StatusPanel
