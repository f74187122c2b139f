import StatusPanel.Proofs.Firmware.Steps

/-!
# The journal of a run

An observer of the firmware keeps a journal: the events that were published, with a mark on each
that found a full mailbox; the events that the display task handled; and for each tick of the typing
speed, the events since the tick before and the count of keystrokes that was taken. The journal
tells what the tasks share at every moment: which events wait, what the status is, and how many
keystrokes were counted.

## Main definitions

* `Journal`, `Chronicle`: the journal, and the firmware with it
* `Status.Latest`: a status whose fields are what events reported last
* `Chronicle.Sound`: the journal tells what the tasks share

## Main results

* `Status.latest_foldl`: a status that followed events has what they reported last
* `Chronicle.Sound.step`, `Chronicle.Sound.run`: the journal stays so in every run
* `Chronicle.handles_in_order`: which events the display task handles, and with which status
* `Chronicle.counts_every_keystroke`: what the ticks count, and what they leave alone
-/

namespace StatusPanel

/-! ## The status that followed events -/

namespace Event

/-- The layers that an event reports. -/
def layers? : Event → Option LayerMask
  | .layers mask => some mask
  | _ => none

/-- The default layers that an event reports. -/
def defaultLayers? : Event → Option LayerMask
  | .defaultLayers mask => some mask
  | _ => none

/-- The lock keys that an event reports. -/
def locks? : Event → Option Locks
  | .locks state => some state
  | _ => none

/-- The lighting that an event reports. -/
def lighting? : Event → Option Lighting
  | .lighting state => some state
  | _ => none

end Event

/-- What the last of some events with a payload reports, or a default if none has one. -/
def lastReport {α : Type} (payload : Event → Option α) (default : α) (events : List Event) : α :=
  (events.filterMap payload).getLast?.getD default

namespace Status

/-- A field that follows the payloads of events is what was reported last. -/
theorem eq_lastReport {α : Type} {field : Status → α} {payload : Event → Option α}
    (hfield : ∀ s event, field (apply s event) = (payload event).getD (field s)) (before : Status)
    (events : List Event) :
    field (events.foldl apply before) = lastReport payload (field before) events := by
  -- Induction from the last event on: it has a payload, or leaves what was reported before it.
  induction events using List.reverseRecOn with
  | nil => rfl
  | append_singleton events event ih =>
    rw [List.foldl_concat, hfield, ih]
    unfold lastReport
    cases hpayload : payload event <;> simp [List.filterMap_append, hpayload]

/-- A status whose fields are what events reported last, or as they were before if none did. -/
structure Latest (before : Status) (events : List Event) (s : Status) : Prop where
  layers : s.layers = lastReport Event.layers? before.layers events
  defaultLayers : s.defaultLayers = lastReport Event.defaultLayers? before.defaultLayers events
  locks : s.locks = lastReport Event.locks? before.locks events
  lighting : s.lighting = lastReport Event.lighting? before.lighting events

/-- A status that followed events has what they reported last. -/
theorem latest_foldl (before : Status) (events : List Event) :
    Latest before events (events.foldl apply before) where
  layers := eq_lastReport (fun _ event => by cases event <;> rfl) before events
  defaultLayers := eq_lastReport (fun _ event => by cases event <;> rfl) before events
  locks := eq_lastReport (fun _ event => by cases event <;> rfl) before events
  lighting := eq_lastReport (fun _ event => by cases event <;> rfl) before events

end Status

/-! ## The count of keystrokes -/

/-- The keystrokes among events, as far as they can be counted. -/
def countable (events : List Event) : Nat := min (events.count (.key false)) (UInt32.size - 1)

/-- Publishing counts a keystroke, whether or not the event finds room. -/
theorem Shared.keystrokes_publish {s : Shared} {events : List Event}
    (h : s.keystrokes.toNat = countable events) (event : Event) :
    (s.publish event).1.keystrokes.toNat = countable (events ++ [event]) := by
  have hcount : (events ++ [event]).count (.key false) =
      events.count (.key false) + if isKeystroke event then 1 else 0 := by
    rw [List.count_append, List.count_singleton]
    rfl
  have hpublish : (s.publish event).1.keystrokes =
      (if isKeystroke event then s.countKeystroke else s).keystrokes := by
    unfold publish countKeystroke
    by_cases hk : isKeystroke event <;> simp only [hk, if_true, if_false, Bool.false_eq_true]
    split <;> rfl
  rw [hpublish]
  unfold countable at h ⊢
  rw [hcount]
  split
  case isTrue =>
    unfold countKeystroke
    split
    case isTrue hroom =>
      have hone : (1 : UInt32).toNat = 1 := rfl
      rw [UInt32.toNat_add, hone, Nat.mod_eq_of_lt hroom]
      omega
    case isFalse hfull => omega
  case isFalse => simpa using h

/-! ## The journal -/

/-- The event that a move publishes. -/
def Move.event? : Move → Option Event
  | .publish event => some event
  | .wait _ | .display | .typing | .indicator => none

/-- An event that was published. -/
structure Publication where
  event : Event
  /-- Whether as many events waited as can. -/
  crowded : Bool
  deriving DecidableEq, Repr

/-- A tick of the typing speed. -/
structure Tick where
  /-- The events that were published since the tick before. -/
  span : List Event
  /-- The count of keystrokes that was taken. -/
  taken : UInt32
  /-- The estimate of the typing speed. -/
  estimate : UInt16
  deriving DecidableEq, Repr

/-- What an observer of the firmware writes down. -/
structure Journal where
  /-- The events that were published, in order. -/
  published : List Publication := []
  /-- The events that the display task handled, in order. -/
  received : List Event := []
  /-- The ticks that were taken, in order. -/
  ticks : List Tick := []
  /-- The events that were published since the last tick. -/
  since : List Event := []
  deriving DecidableEq, Repr

namespace Journal

/-- The events that were published. -/
def events (j : Journal) : List Event := j.published.map Publication.event

/-- The publications that found room. -/
def kept (j : Journal) : List Publication := j.published.filter fun p => !p.crowded

/-- The latest estimate of the typing speed. -/
def estimate (j : Journal) : UInt16 := (j.ticks.getLast?.map Tick.estimate).getD 0

/-- The status at boot after all events that were published, with the latest estimate. -/
def status (j : Journal) (lighting : Lighting) : Status :=
  { j.events.foldl Status.apply (.boot lighting) with wpm := j.estimate }

/-- Each field of the status but the typing speed is what was reported last. -/
theorem latest_status (j : Journal) (lighting : Lighting) :
    Status.Latest (.boot lighting) j.events (j.status lighting) := by
  obtain ⟨hlayers, hdefault, hlocks, hlighting⟩ := Status.latest_foldl (.boot lighting) j.events
  exact ⟨hlayers, hdefault, hlocks, hlighting⟩

/-- The journal after a step of the firmware. -/
def step (j : Journal) (m : Machine) : Move → Journal
  | .publish event =>
    { j with
      published := j.published ++ [⟨event, m.shared.events.isFull⟩], since := j.since ++ [event] }
  | .display => { j with received := j.received ++ (m.handled? .display).toList }
  | .typing =>
    match m.tick? with
    | some (meter, _) =>
      { j with
        ticks := j.ticks ++
          [⟨j.since, m.shared.keystrokes, (TypingTask.tick meter m.shared).1.wpm⟩]
        since := [] }
    | none => j
  | .wait _ | .indicator => j

end Journal

/-- The firmware and its journal. -/
structure Chronicle where
  machine : Machine
  journal : Journal := {}

namespace Chronicle

/-- The firmware before any task has run, with a blank journal. -/
def start (panel : Panel) (settings : Settings) (clock : Nat) : Chronicle where
  machine := .assemble panel settings clock

/-- The firmware and its journal after a step. -/
def step (c : Chronicle) (move : Move) : Chronicle :=
  ⟨c.machine.step move, c.journal.step c.machine move⟩

/-- The firmware and its journal after steps. -/
def run (c : Chronicle) (moves : List Move) : Chronicle := moves.foldl step c

/-- The observer does not disturb the firmware. -/
theorem machine_run (c : Chronicle) (moves : List Move) :
    (c.run moves).machine = moves.foldl Machine.step c.machine := by
  induction moves generalizing c with
  | nil => rfl
  | cons move rest ih => exact ih (c.step move)

/-- The journal tells what the tasks share. -/
structure Sound (lighting : Lighting) (c : Chronicle) : Prop where
  /-- What was handled and what waits is what found room. -/
  delivered : c.journal.received ++ c.machine.shared.events.messages =
    c.journal.kept.map Publication.event
  status : c.machine.shared.status = c.journal.status lighting
  keystrokes : c.machine.shared.keystrokes.toNat = countable c.journal.since
  ticks : ∀ tick ∈ c.journal.ticks, tick.taken.toNat = countable tick.span
  /-- The ticks cut what was published into spans. -/
  spans : c.journal.ticks.flatMap Tick.span ++ c.journal.since = c.journal.events

theorem sound_start (panel : Panel) (settings : Settings) (clock : Nat) :
    (start panel settings clock).Sound settings.lighting :=
  ⟨rfl, rfl, rfl, nofun, rfl⟩

namespace Sound

variable {lighting : Lighting} {c : Chronicle}

theorem publish (h : c.Sound lighting) (event : Event) :
    (c.step (.publish event)).Sound lighting := by
  have hevents : (c.journal.step c.machine (.publish event)).events =
      c.journal.events ++ [event] := by
    simp [Journal.events, Journal.step]
  constructor
  case delivered =>
    show c.journal.received ++ (c.machine.shared.publish event).1.events.messages = _
    rw [Shared.messages_publish, Journal.kept, Chronicle.step, Journal.step, List.filter_append,
      List.map_append]
    have hkept := h.delivered
    unfold Journal.kept at hkept
    -- an event that finds no room is marked, so it is not among the kept ones
    cases hfull : c.machine.shared.events.isFull with
    | true => simpa using hkept
    | false => simp [← hkept]
  case status =>
    show (c.machine.shared.publish event).1.status = _
    rw [Shared.status_publish, h.status, Journal.status, Journal.status, Chronicle.step, hevents,
      List.foldl_concat]
    cases event <;> rfl
  case keystrokes => exact Shared.keystrokes_publish h.keystrokes event
  case ticks => exact h.ticks
  case spans =>
    rw [Chronicle.step, hevents, ← h.spans, List.append_assoc]
    rfl

/-- What leaves the status and the count, and takes the events that it handles, keeps the journal
sound. -/
theorem frame (h : c.Sound lighting) {m : Machine} {handled : List Event}
    (hstatus : m.shared.status = c.machine.shared.status)
    (hkeystrokes : m.shared.keystrokes = c.machine.shared.keystrokes)
    (hmessages : handled ++ m.shared.events.messages = c.machine.shared.events.messages) :
    Sound lighting ⟨m, { c.journal with received := c.journal.received ++ handled }⟩ := by
  constructor
  case delivered =>
    dsimp only
    rw [List.append_assoc, hmessages]
    exact h.delivered
  case status => exact hstatus.trans h.status
  case keystrokes => exact (congrArg UInt32.toNat hkeystrokes).trans h.keystrokes
  case ticks => exact h.ticks
  case spans => exact h.spans

theorem frame_of_quiet (h : c.Sound lighting) {m : Machine}
    (hstatus : m.shared.status = c.machine.shared.status)
    (hkeystrokes : m.shared.keystrokes = c.machine.shared.keystrokes)
    (hevents : m.shared.events = c.machine.shared.events) : Sound lighting ⟨m, c.journal⟩ := by
  have hframe : Sound lighting ⟨m, { c.journal with received := c.journal.received ++ [] }⟩ :=
    h.frame hstatus hkeystrokes (congrArg Mailbox.messages hevents)
  rwa [List.append_nil] at hframe

theorem display (h : c.Sound lighting) : (c.step .display).Sound lighting := by
  obtain ⟨hstatus, hkeystrokes, hmessages⟩ := c.machine.shared_step_display
  exact h.frame hstatus hkeystrokes hmessages

/-- A tick closes the span of the events since the last one. -/
theorem tick (h : c.Sound lighting) {meter : SpeedMeter} {following : Nat}
    (htick : c.machine.tick? = some (meter, following)) : (c.step .typing).Sound lighting := by
  have hjournal : c.journal.step c.machine .typing =
      { c.journal with
        ticks := c.journal.ticks ++ [⟨c.journal.since, c.machine.shared.keystrokes,
          (TypingTask.tick meter c.machine.shared).1.wpm⟩]
        since := [] } := by
    simp only [Journal.step, htick]
  have hmachine := Machine.step_typing_of_tick htick
  constructor
  all_goals
    simp only [Chronicle.step, hjournal, hmachine]
  case delivered => exact h.delivered
  case status =>
    rw [h.status]
    simp [Journal.status, Journal.estimate, Journal.events, TypingTask.tick, Shared.takeKeystrokes]
  case keystrokes => rfl
  case ticks =>
    intro tick hmem
    rcases List.mem_append.1 hmem with hmem | hmem
    · exact h.ticks tick hmem
    · -- the count that this tick takes is that of the span it closes
      obtain rfl := List.mem_singleton.1 hmem
      exact h.keystrokes
  case spans =>
    rw [List.flatMap_append, List.append_nil, List.flatMap_singleton]
    exact h.spans

theorem typing (h : c.Sound lighting) : (c.step .typing).Sound lighting := by
  cases htick : c.machine.tick? with
  | none =>
    have hjournal : c.journal.step c.machine .typing = c.journal := by
      simp only [Journal.step, htick]
    have hshared := Machine.shared_step_typing_of_tick_eq_none htick
    rw [Chronicle.step, hjournal]
    exact h.frame_of_quiet (congrArg Shared.status hshared) (congrArg Shared.keystrokes hshared)
      (congrArg Shared.events hshared)
  | some due => exact h.tick htick

theorem indicator (h : c.Sound lighting) : (c.step .indicator).Sound lighting := by
  obtain ⟨hstatus, hkeystrokes, hevents⟩ := c.machine.shared_step_indicator
  exact h.frame_of_quiet hstatus hkeystrokes hevents

/-- **Every step** of the firmware keeps the journal sound. -/
theorem step (h : c.Sound lighting) (move : Move) : (c.step move).Sound lighting := by
  cases move with
  | publish event => exact h.publish event
  | wait time => exact h.frame_of_quiet rfl rfl rfl
  | display => exact h.display
  | typing => exact h.typing
  | indicator => exact h.indicator

theorem run (h : c.Sound lighting) (moves : List Move) : (c.run moves).Sound lighting := by
  induction moves generalizing c with
  | nil => exact h
  | cons move rest ih => exact ih (h.step move)

end Sound

theorem sound_run (panel : Panel) (settings : Settings) (clock : Nat) (moves : List Move) :
    ((start panel settings clock).run moves).Sound settings.lighting :=
  (sound_start panel settings clock).run moves

/-- What was published is what the moves publish. -/
theorem events_run (c : Chronicle) (moves : List Move) :
    (c.run moves).journal.events = c.journal.events ++ moves.filterMap Move.event? := by
  induction moves generalizing c with
  | nil => exact (List.append_nil _).symm
  | cons move rest ih =>
    have hstep : (c.step move).journal.events = c.journal.events ++ move.event?.toList := by
      unfold Journal.events Chronicle.step
      cases move with
      | publish event => simp [Journal.step, Move.event?]
      | typing =>
        simp only [Journal.step]
        split <;> simp [Move.event?]
      | _ => simp [Journal.step, Move.event?]
    rw [run, List.foldl_cons]
    refine (ih (c.step move)).trans ?_
    rw [hstep, List.append_assoc]
    -- the events of the moves are those of this move and those of the rest
    cases hevent : move.event? with
    | none => rw [List.filterMap_cons_none hevent]; rfl
    | some event => rw [List.filterMap_cons_some hevent]; rfl

/-! ## Which events are handled -/

theorem exists_getElem?_of_filter {α : Type} {p : α → Bool} {l : List α} {n : Nat} {x : α}
    (h : (l.filter p)[n]? = some x) :
    ∃ i, l[i]? = some x ∧ ((l.take i).filter p).length = n := by
  induction l generalizing n with
  | nil => cases h
  | cons a l ih =>
    rw [List.filter_cons] at h
    split at h
    case isTrue ha =>
      cases n with
      | zero => exact ⟨0, h, rfl⟩
      | succ n =>
        obtain ⟨i, hi, hlength⟩ := ih h
        refine ⟨i + 1, hi, ?_⟩
        rw [List.take_succ_cons, List.filter_cons_of_pos ha, List.length_cons, hlength]
    case isFalse ha =>
      obtain ⟨i, hi, hlength⟩ := ih h
      refine ⟨i + 1, hi, ?_⟩
      rw [List.take_succ_cons, List.filter_cons_of_neg ha, hlength]

/-- **Events are handled in order, with a status at least as new.** In every run, from every panel,
settings and time of boot, of publications, waits and iterations of the tasks in any order:

* the events that the display task handled, followed by those that wait, are the published events
  in their order, without those that found as many events waiting as can;
* when the task handles an event, it is one that was published and found room, with exactly as many
  such before it as were handled. The status that the tasks share is then the one at boot after all
  that was published, this event among it, with the latest estimate of the typing speed; the task
  reads it and tells it to the controller. Each field of it is what was reported last. -/
theorem handles_in_order (panel : Panel) (settings : Settings) (clock : Nat) (moves : List Move) :
    let c := (start panel settings clock).run moves
    c.journal.events = moves.filterMap Move.event? ∧
      c.journal.received ++ c.machine.shared.events.messages =
        c.journal.kept.map Publication.event ∧
      ∀ event, c.machine.handled? .display = some event →
        (∃ i, c.journal.published[i]? = some ⟨event, false⟩ ∧
          ((c.journal.published.take i).filter fun p => !p.crowded).length =
            c.journal.received.length) ∧
        ∃ controller agenda alarm, c.machine.display = .waiting controller agenda alarm ∧
          let told := c.journal.status settings.lighting
          let now := Clock.milliseconds c.machine.clock
          let handled := controller.handle agenda event told now
          c.machine.shared.status = told ∧
            (c.machine.step .display).display =
              DisplayTask.settle handled.1 handled.2.1 told c.machine.clock ∧
            Status.Latest (.boot settings.lighting) c.journal.events told ∧
            told.wpm = c.journal.estimate := by
  intro c
  have hsound : c.Sound settings.lighting := sound_run panel settings clock moves
  refine ⟨events_run _ moves, hsound.delivered, fun event hevent => ?_⟩
  obtain ⟨controller, agenda, alarm, rest, hdisplay, hwaiting, hstep⟩ :=
    Machine.step_display_of_handled hevent
  constructor
  · -- the event is the first kept one that was not handled yet
    have hnext : (c.journal.kept.map Publication.event)[c.journal.received.length]? =
        some event := by
      rw [← hsound.delivered, hwaiting, List.getElem?_append_right (Nat.le_refl _), Nat.sub_self]
      rfl
    rw [List.getElem?_map, Option.map_eq_some_iff] at hnext
    obtain ⟨⟨event', crowded⟩, hpublication, rfl⟩ := hnext
    have hkept := List.mem_filter.1 (List.mem_of_getElem? hpublication)
    obtain rfl : crowded = false := by simpa using hkept.2
    exact exists_getElem?_of_filter hpublication
  · refine ⟨controller, agenda, alarm, hdisplay, hsound.status, ?_, ?_, rfl⟩
    · rw [← hsound.status]
      exact hstep
    · exact c.journal.latest_status settings.lighting

/-- A panel on a bus that refuses every write. -/
def deadPanel : Panel := { bus := Watch.deadBus, address := 0x3C }

/-- A start, one release more than can wait, a tick, and a report that finds no room. -/
def crowdedMoves : List Move :=
  [.display, .typing] ++ List.replicate (eventCapacity + 1) (.publish (.key false)) ++
    [.wait 125000, .typing, .publish (.layers ⟨4⟩)]

/-- The first of the releases is handled with the layers that were reported after it, though their
report was lost. -/
theorem handles_in_order_crowded :
    let c := (start deadPanel .standard 0).run crowdedMoves
    c.machine.handled? .display = some (.key false) ∧
      (c.journal.status Settings.standard.lighting).layers = ⟨4⟩ ∧
      c.journal.kept.map Publication.event = List.replicate eventCapacity (.key false) ∧
      ∃ i, c.journal.published[i]? = some ⟨.key false, false⟩ ∧
        ((c.journal.published.take i).filter fun p => !p.crowded).length =
          c.journal.received.length := by
  intro c
  have hhandled : c.machine.handled? .display = some (.key false) := by decide +kernel
  have hlayers : (c.journal.status Settings.standard.lighting).layers = ⟨4⟩ := by decide +kernel
  have hkept : c.journal.kept.map Publication.event =
      List.replicate eventCapacity (.key false) := by decide +kernel
  obtain ⟨-, -, hevents⟩ :=
    handles_in_order deadPanel .standard 0 crowdedMoves
  exact ⟨hhandled, hlayers, hkept, (hevents _ hhandled).1⟩

/-! ## What is counted -/

/-- **Every keystroke is counted once, and no report is lost.** In every run, from every panel,
settings and time of boot, of publications, waits and iterations of the tasks in any order:

* the ticks cut the published events into spans, and the count that a tick takes is the number of
  key releases in its span, as far as 32 bits hold it, whether or not they found room;
* the next tick will record the number of key releases since, and changes nothing that the tasks
  share but the typing speed and the count, which starts anew;
* publishing leaves the typing speed, and all other steps leave the status and the count;
* the status is, apart from the typing speed, the one at boot after the published events, so that
  each field has what was reported last; in every other run that publishes the same events in the
  same order, wherever the ticks fall, it is the same. -/
theorem counts_every_keystroke (panel : Panel) (settings : Settings) (clock : Nat)
    (moves : List Move) :
    let c := (start panel settings clock).run moves
    (c.journal.ticks.flatMap Tick.span ++ c.journal.since = moves.filterMap Move.event? ∧
        ∀ tick ∈ c.journal.ticks, tick.taken.toNat = countable tick.span) ∧
      (∀ meter following, c.machine.tick? = some (meter, following) →
        let closed := (meter.record (countable c.journal.since)).advance
        c.machine.step .typing = { c.machine with
          typing := .waiting closed following
          shared := { c.machine.shared with
            keystrokes := 0, status := { c.machine.shared.status with wpm := closed.wpm } } }) ∧
      (∀ event, (c.machine.step (.publish event)).shared.status.wpm =
        c.machine.shared.status.wpm) ∧
      (∀ move, move.event? = none → (move = .typing → c.machine.tick? = none) →
        (c.machine.step move).shared.status = c.machine.shared.status ∧
          (c.machine.step move).shared.keystrokes = c.machine.shared.keystrokes) ∧
      c.machine.shared.status.reported =
        ((moves.filterMap Move.event?).foldl Status.apply (.boot settings.lighting)).reported ∧
      Status.Latest (.boot settings.lighting) (moves.filterMap Move.event?)
        c.machine.shared.status ∧
      ∀ (other : Panel) (later : Nat) (others : List Move),
        others.filterMap Move.event? = moves.filterMap Move.event? →
        ((start other settings later).run others).machine.shared.status.reported =
          c.machine.shared.status.reported := by
  intro c
  have hsound : c.Sound settings.lighting := sound_run panel settings clock moves
  have hevents : c.journal.events = moves.filterMap Move.event? := events_run _ moves
  -- two runs that publish the same events have the same status, since each has that of its journal
  have hreported (panel : Panel) (clock : Nat) (moves : List Move) :
      ((start panel settings clock).run moves).machine.shared.status.reported =
        ((moves.filterMap Move.event?).foldl Status.apply (.boot settings.lighting)).reported := by
    rw [(sound_run panel settings clock moves).status, Journal.status, events_run]
    rfl
  have hlatest : Status.Latest (.boot settings.lighting) (moves.filterMap Move.event?)
      c.machine.shared.status := by
    rw [hsound.status, ← hevents]
    exact c.journal.latest_status settings.lighting
  refine ⟨⟨hevents ▸ hsound.spans, hsound.ticks⟩, ?_, ?_, ?_, hreported panel clock moves, hlatest,
    ?_⟩
  · intro meter following htick
    rw [← hsound.keystrokes]
    exact Machine.step_typing_of_tick htick
  · intro event
    show (c.machine.shared.publish event).1.status.wpm = _
    rw [Shared.status_publish, Status.wpm_apply]
  · intro move hquiet htick
    cases move with
    | publish event => cases hquiet
    | wait time => exact ⟨rfl, rfl⟩
    | display =>
      obtain ⟨hstatus, hkeystrokes, -⟩ := c.machine.shared_step_display
      exact ⟨hstatus, hkeystrokes⟩
    | typing =>
      rw [Machine.shared_step_typing_of_tick_eq_none (htick rfl)]
      exact ⟨rfl, rfl⟩
    | indicator =>
      obtain ⟨hstatus, hkeystrokes, -⟩ := c.machine.shared_step_indicator
      exact ⟨hstatus, hkeystrokes⟩
  · intro other later others hsame
    rw [hreported other later others, hsame]
    exact (hreported panel clock moves).symm

/-- A tick counts the release that found no room, and the status is the same without the tick. -/
theorem counts_every_keystroke_crowded :
    let c := (start deadPanel .standard 0).run crowdedMoves
    c.journal.ticks.map Tick.taken = [17] ∧ c.journal.kept.length = 16 ∧
      ((start deadPanel .standard 0).run
          (crowdedMoves.filter fun move => move.event?.isSome)).machine.shared.status.reported =
        c.machine.shared.status.reported := by
  dsimp only
  obtain ⟨-, -, -, -, -, -, hsame⟩ :=
    counts_every_keystroke deadPanel .standard 0 crowdedMoves
  have hreports : (crowdedMoves.filter fun move => move.event?.isSome).filterMap Move.event? =
      crowdedMoves.filterMap Move.event? := by decide +kernel
  refine ⟨?_, ?_, hsame deadPanel 0 _ hreports⟩
  · decide +kernel
  · decide +kernel

end Chronicle

end StatusPanel
