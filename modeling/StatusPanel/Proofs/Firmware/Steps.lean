import Mathlib.Data.List.Forall2
import StatusPanel.Proofs.Firmware.Shutdown

/-!
# Steps of the firmware

In a turn the typing-speed task takes every tick that is due. A turn is a number of iterations: the
task starts its ticker, or takes one tick. Events can be published, and the other tasks can run,
between any two iterations, so a step of the firmware is an iteration of one task. Moves are made of
steps: each is one, but the turn of the typing-speed task is a number of them.

## Main definitions

* `TypingTask.tick?`, `TypingTask.iterate`: the tick that is taken next, and one iteration
* `Machine.step`: one step of the firmware
* `Move.Splits`: the steps that make up a move

## Main results

* `TypingTask.catchUp_eq_iterate`: ticks that are due are iterations
* `Machine.move_eq_steps`, `Machine.foldl_move_eq_steps`: a move and a run of moves are made of
  steps
* `Machine.run_eq_steps`: so is every turn of the tasks
* `DisplayTask.shared_iterate`, `Machine.step_typing_of_tick`: what a step does to the shared state
-/

namespace StatusPanel

namespace TypingTask

/-! ## Iterations -/

/-- The tick that the task takes when it iterates: its meter, and the time of the tick after. -/
def tick? (task : TypingTask) (clock : Nat) : Option (SpeedMeter × Nat) :=
  match task with
  | .waiting meter next =>
    if clock < next then none
    else (Clock.after? next (period meter)).map fun following => (meter, following)
  | .created _ | .halted => none

/-- An iteration of the task: it starts its ticker, or takes a tick if one is due. -/
def iterate (clock : Nat) : TypingTask × Shared → TypingTask × Shared
  | (.created settings, shared) =>
    (start (SpeedMeter.start settings.sampleSeconds settings.samplePeriods) clock, shared)
  | (.waiting meter next, shared) =>
    if clock < next then (.waiting meter next, shared)
    else
      match Clock.after? next (period meter) with
      | some following => (.waiting (tick meter shared).1 following, (tick meter shared).2)
      | none => (.halted, shared)
  | (.halted, shared) => (.halted, shared)

/-- What the task notes in the log when it runs. -/
def notes : TypingTask → List LogRecord
  | .created settings =>
    let meter := SpeedMeter.start settings.sampleSeconds settings.samplePeriods
    [.info s!"WPM task started, {meter.periodMs} ms periods"]
  | .waiting _ _ | .halted => []

theorem iterate_halted (clock count : Nat) (shared : Shared) :
    (iterate clock)^[count] (.halted, shared) = (.halted, shared) :=
  Function.iterate_fixed rfl count

/-- A tick leaves the length of a period. -/
theorem period_tick (meter : SpeedMeter) (shared : Shared) :
    period (tick meter shared).1 = period meter := rfl

/-- After a tick that is due, one less is due. -/
theorem le_dueTicks_of_succ_le {meter after : SpeedMeter} {count next clock : Nat}
    (hperiod : period after = period meter) (h : count + 1 ≤ dueTicks meter next clock) :
    next ≤ clock ∧ count ≤ dueTicks after (next + period meter) clock := by
  unfold dueTicks at h ⊢
  rw [hperiod]
  split at h
  case isTrue => cases h
  case isFalse hdue =>
    have hle := Nat.le_of_succ_le_succ h
    refine ⟨Nat.le_of_not_lt hdue, ?_⟩
    split
    case isTrue hlt =>
      -- the clock is within the period, so no other tick was due
      have hless : clock - next < period meter := by omega
      rwa [Nat.div_eq_of_lt hless] at hle
    case isFalse hge =>
      rcases Nat.eq_zero_or_pos (period meter) with hzero | hpos
      · rw [hzero, Nat.div_zero] at hle
        exact Nat.le_trans hle (Nat.zero_le _)
      · have hdiv := Nat.div_eq_sub_div hpos (a := clock - next) (by omega)
        rwa [hdiv, Nat.sub_sub] at hle

/-- Ticks that are due are iterations. -/
theorem catchUp_eq_iterate {clock count : Nat} {meter : SpeedMeter} {next : Nat}
    (h : count ≤ dueTicks meter next clock) (shared : Shared) :
    catchUp count meter next shared = (iterate clock)^[count] (.waiting meter next, shared) := by
  -- Induction on the ticks to take, of which at least so many are due.
  induction count generalizing meter next shared with
  | zero => rfl
  | succ count ih =>
    obtain ⟨hdue, hrest⟩ := le_dueTicks_of_succ_le (period_tick meter shared) h
    rw [Function.iterate_succ_apply, catchUp, iterate, if_neg (Nat.not_lt_of_le hdue)]
    cases hafter : Clock.after? next (period meter) with
    | none => exact (iterate_halted clock count shared).symm
    | some following =>
      obtain ⟨rfl, -⟩ := Clock.after?_eq_some_iff.1 hafter
      exact ih hrest (tick meter shared).2

/-- A turn of the typing-speed task is a number of iterations. -/
theorem poll_eq_iterate (task : TypingTask) (shared : Shared) (clock : Nat) :
    ∃ count, (task.notes ≠ [] → count = 1) ∧ task.poll shared clock =
      (((iterate clock)^[count] (task, shared)).1, ((iterate clock)^[count] (task, shared)).2,
        task.notes) := by
  cases task with
  | created settings => exact ⟨1, fun _ => rfl, rfl⟩
  | waiting meter next =>
    refine ⟨dueTicks meter next clock, fun h => absurd rfl h, ?_⟩
    rw [← catchUp_eq_iterate (Nat.le_refl _)]
    rfl
  | halted => exact ⟨0, fun h => absurd rfl h, rfl⟩

/-! ### What an iteration does -/

variable {task : TypingTask} {clock : Nat}

theorem iterate_of_tick {meter : SpeedMeter} {following : Nat}
    (h : task.tick? clock = some (meter, following)) (shared : Shared) :
    iterate clock (task, shared) =
      (.waiting (tick meter shared).1 following, (tick meter shared).2) := by
  cases task with
  | waiting meter' next =>
    unfold tick? at h
    dsimp only at h
    split at h
    case isTrue => cases h
    case isFalse hdue =>
      obtain ⟨following', hafter, heq⟩ := Option.map_eq_some_iff.1 h
      obtain ⟨rfl, rfl⟩ := Prod.mk.inj heq
      rw [iterate, if_neg hdue, hafter]
  | _ => cases h

theorem shared_iterate_of_tick_eq_none (h : task.tick? clock = none) (shared : Shared) :
    (iterate clock (task, shared)).2 = shared := by
  cases task with
  | waiting meter next =>
    unfold tick? at h
    dsimp only at h
    rw [iterate]
    split
    case isTrue => rfl
    case isFalse hdue =>
      rw [if_neg hdue, Option.map_eq_none_iff] at h
      rw [h]
  | _ => rfl

end TypingTask

/-! ## Steps -/

namespace Machine

/-- The machine with its typing-speed task and what the tasks share replaced. -/
def withTyping (m : Machine) (p : TypingTask × Shared) : Machine :=
  { m with typing := p.1, shared := p.2 }

/-- An iteration of the typing-speed task. -/
def iterateTyping (m : Machine) : Machine :=
  if m.isHalted then m
  else (m.withTyping (TypingTask.iterate m.clock (m.typing, m.shared))).note m.typing.notes

/-- The firmware after a step: a move in which the typing-speed task takes one tick at most. -/
def step (m : Machine) : Move → Machine
  | .typing => m.iterateTyping
  | .publish event => m.publish event
  | .wait time => m.wait time
  | .display => m.iterateDisplay
  | .indicator => m.runIndicator

/-- While the clock runs and the display task did not halt, an iteration of the machine is one of
its typing-speed task. -/
theorem iterateTyping_of_live {m : Machine} (hclock : m.clock < Clock.limit)
    (hdisplay : m.display.isHalted = false) :
    m.iterateTyping =
      (m.withTyping (TypingTask.iterate m.clock (m.typing, m.shared))).note m.typing.notes := by
  unfold iterateTyping
  split
  case isTrue hhalted =>
    have htyping : m.typing.isHalted = true := by
      simpa [isHalted, hdisplay, Nat.not_le_of_lt hclock] using hhalted
    -- a halted task iterates to itself and notes nothing
    obtain ⟨clock, shared, display, typing, indicator, frames, log⟩ := m
    cases typing with
    | halted => exact (note_nil _).symm
    | _ => cases htyping
  case isFalse => rfl

theorem notes_iterate (clock : Nat) (p : TypingTask × Shared) :
    (TypingTask.iterate clock p).1.notes = [] := by
  obtain ⟨task, shared⟩ := p
  cases task with
  | created settings =>
    rw [TypingTask.iterate, TypingTask.start]
    split <;> rfl
  | waiting meter next =>
    rw [TypingTask.iterate]
    split
    · rfl
    · split <;> rfl
  | halted => rfl

theorem iterate_iterateTyping {m : Machine} (hclock : m.clock < Clock.limit)
    (hdisplay : m.display.isHalted = false) {p : TypingTask × Shared} (hp : p.1.notes = [])
    (count : Nat) :
    iterateTyping^[count] (m.withTyping p) =
      m.withTyping ((TypingTask.iterate m.clock)^[count] p) := by
  induction count generalizing p with
  | zero => rfl
  | succ count ih =>
    have hstep : (m.withTyping p).iterateTyping =
        m.withTyping (TypingTask.iterate m.clock p) := by
      rw [iterateTyping_of_live (m := m.withTyping p) hclock hdisplay]
      exact (congrArg (note _) hp).trans (note_nil _)
    rw [Function.iterate_succ_apply, Function.iterate_succ_apply, hstep]
    exact ih (notes_iterate m.clock p)

/-- A turn of the typing-speed task is a number of iterations. -/
theorem runTyping_eq_iterate (m : Machine) : ∃ count, m.runTyping = iterateTyping^[count] m := by
  unfold runTyping
  split
  case isTrue => exact ⟨0, rfl⟩
  case isFalse hlive =>
    simp only [isHalted, Bool.or_eq_true, decide_eq_true_eq, not_or, Nat.not_le,
      Bool.not_eq_true] at hlive
    obtain ⟨⟨hclock, hdisplay⟩, -⟩ := hlive
    obtain ⟨count, hone, hpoll⟩ := m.typing.poll_eq_iterate m.shared m.clock
    refine ⟨count, ?_⟩
    rw [hpoll]
    by_cases hnotes : m.typing.notes = []
    · have hiterate := iterate_iterateTyping hclock hdisplay (p := (m.typing, m.shared)) hnotes
      exact (congrArg (note _) hnotes).trans ((note_nil _).trans (hiterate count).symm)
    · -- the turn in which the ticker starts is one iteration
      obtain rfl := hone hnotes
      exact (iterateTyping_of_live hclock hdisplay).symm

end Machine

/-! ### Moves are made of steps -/

/-- Whether steps make up a move: those of a turn of the typing-speed task are its iterations, and
every other move is a step. -/
inductive Move.Splits : Move → List Move → Prop
  | single {move : Move} (h : move ≠ .typing) : Splits move [move]
  | ticks (count : Nat) : Splits .typing (List.replicate count .typing)

namespace Machine

theorem step_eq_move {move : Move} (h : move ≠ .typing) (m : Machine) :
    m.step move = m.move move := by
  cases move with
  | typing => exact absurd rfl h
  | _ => rfl

/-- A move is made of steps. -/
theorem move_eq_steps (m : Machine) (move : Move) :
    ∃ steps, move.Splits steps ∧ m.move move = steps.foldl step m := by
  by_cases htyping : move = .typing
  · subst htyping
    obtain ⟨count, hcount⟩ := m.runTyping_eq_iterate
    exact ⟨_, .ticks count, hcount.trans (foldl_replicate step .typing count m).symm⟩
  · exact ⟨_, .single htyping, (step_eq_move htyping m).symm⟩

/-- A run of moves is made of the steps of each. -/
theorem foldl_move_eq_steps (m : Machine) (moves : List Move) :
    ∃ parts, List.Forall₂ Move.Splits moves parts ∧
      moves.foldl move m = parts.flatten.foldl step m := by
  induction moves generalizing m with
  | nil => exact ⟨[], .nil, rfl⟩
  | cons move rest ih =>
    obtain ⟨steps, hsplits, hmove⟩ := m.move_eq_steps move
    obtain ⟨parts, hparts, hrest⟩ := ih (m.move move)
    refine ⟨steps :: parts, .cons hsplits hparts, ?_⟩
    rw [List.foldl_cons, hrest, hmove, List.flatten_cons, List.foldl_append]

theorem foldl_step_eq_move {moves : List Move} (h : .typing ∉ moves) (m : Machine) :
    moves.foldl step m = moves.foldl move m :=
  List.foldl_ext step move m fun m _ hmem => step_eq_move (ne_of_mem_of_not_mem hmem h) m

/-- Time passes and every task has a turn, with numbers of iterations. -/
def fineTurn (time displays ticks : Nat) : List Move :=
  .wait time :: (List.replicate displays .display ++ List.replicate ticks .typing ++ [.indicator])

/-- Every turn of the tasks is made of steps. -/
theorem run_eq_steps (m : Machine) (time : Nat) :
    ∃ displays ticks, m.run time = (fineTurn time displays ticks).foldl step m := by
  obtain ⟨displays, hturn⟩ := m.run_eq_turn time
  -- before the typing-speed task has its turn, the moves are the steps
  have hdisplays (start : Machine) : (List.replicate displays .display).foldl step start =
      (List.replicate displays .display).foldl move start :=
    foldl_step_eq_move (by simp) start
  obtain ⟨ticks, hticks⟩ :=
    ((List.replicate displays .display).foldl move (m.wait time)).runTyping_eq_iterate
  refine ⟨displays, ticks, hturn.trans ?_⟩
  rw [turn, fineTurn, List.foldl_cons, List.foldl_cons, List.foldl_append, List.foldl_append,
    List.foldl_append, foldl_replicate step .typing, hdisplays]
  exact congrArg runIndicator hticks

/-! ### What a step does -/

/-- The tick that the typing-speed task takes in its next step. -/
def tick? (m : Machine) : Option (SpeedMeter × Nat) :=
  if m.isHalted then none else m.typing.tick? m.clock

/-- A tick takes the count of keystrokes, and changes nothing of the status but the typing speed. -/
theorem step_typing_of_tick {m : Machine} {meter : SpeedMeter} {following : Nat}
    (h : m.tick? = some (meter, following)) :
    m.step .typing =
      let closed := (meter.record m.shared.keystrokes.toNat).advance
      { m with
        typing := .waiting closed following
        shared := { m.shared with
          keystrokes := 0, status := { m.shared.status with wpm := closed.wpm } } } := by
  unfold tick? at h
  split at h
  case isTrue => cases h
  case isFalse hlive =>
    have hnotes : m.typing.notes = [] := by
      cases htyping : m.typing with
      | created settings =>
        rw [htyping] at h
        cases h
      | _ => rfl
    rw [step, iterateTyping, if_neg hlive, hnotes, note_nil, TypingTask.iterate_of_tick h]
    rfl

theorem shared_step_typing_of_tick_eq_none {m : Machine} (h : m.tick? = none) :
    (m.step .typing).shared = m.shared := by
  unfold tick? at h
  rw [step, iterateTyping]
  split
  case isTrue => rfl
  case isFalse hlive =>
    rw [if_neg hlive] at h
    exact TypingTask.shared_iterate_of_tick_eq_none h m.shared

end Machine

/-- An iteration of the display task takes the event that it handles, and nothing else of what the
tasks share but the request for dark key LEDs. -/
theorem DisplayTask.shared_iterate (task : DisplayTask) (shared : Shared) (clock : Nat) :
    let after := (iterate clock (task, shared)).2
    after.status = shared.status ∧ after.keystrokes = shared.keystrokes ∧
      (task.handled? shared).toList ++ after.events.messages = shared.events.messages := by
  cases task with
  | created panel settings =>
    rw [iterate_created]
    exact ⟨rfl, rfl, rfl⟩
  | waiting controller agenda alarm =>
    rcases hreceive : shared.events.receive with ⟨rest, message⟩
    simp only [iterate, wake?, handled?, hreceive]
    cases message with
    | none => by_cases halarm : alarm ≤ clock <;> simp [halarm]
    | some event => exact ⟨rfl, rfl, (messages_of_receive hreceive).symm⟩
  | stuck panel => exact ⟨rfl, rfl, rfl⟩
  | halted panel => exact ⟨rfl, rfl, rfl⟩

namespace Machine

theorem shared_step_display (m : Machine) :
    let after := (m.step .display).shared
    after.status = m.shared.status ∧ after.keystrokes = m.shared.keystrokes ∧
      (m.handled? .display).toList ++ after.events.messages = m.shared.events.messages := by
  unfold step iterateDisplay handled?
  dsimp only
  split
  · exact ⟨rfl, rfl, rfl⟩
  · exact m.display.shared_iterate m.shared m.clock

/-- An event that is handled waited longest, and the controller is told it with the shared
status. -/
theorem step_display_of_handled {m : Machine} {event : Event}
    (h : m.handled? .display = some event) :
    ∃ controller agenda alarm rest, m.display = .waiting controller agenda alarm ∧
      m.shared.events.messages = event :: rest ∧
      let now := Clock.milliseconds m.clock
      let handled := controller.handle agenda event m.shared.status now
      (m.step .display).display =
        DisplayTask.settle handled.1 handled.2.1 m.shared.status m.clock := by
  unfold handled? at h
  dsimp only at h
  split at h
  case isTrue => cases h
  case isFalse hlive =>
    unfold step iterateDisplay
    dsimp only
    rw [if_neg hlive]
    cases hdisplay : m.display with
    | waiting controller agenda alarm =>
      rw [hdisplay] at h
      rcases hreceive : m.shared.events.receive with ⟨rest, message⟩
      unfold DisplayTask.handled? at h
      dsimp only at h
      rw [hreceive] at h
      obtain rfl : message = some event := h
      refine ⟨controller, agenda, alarm, rest.messages, rfl,
        DisplayTask.messages_of_receive hreceive, ?_⟩
      simp only [note, withDisplay, DisplayTask.iterate, DisplayTask.wake?, hreceive]
    | _ =>
      rw [hdisplay] at h
      cases h

theorem shared_step_indicator (m : Machine) :
    let after := (m.step .indicator).shared
    after.status = m.shared.status ∧ after.keystrokes = m.shared.keystrokes ∧
      after.events = m.shared.events := by
  unfold step runIndicator IndicatorTask.poll
  dsimp only
  split
  · exact ⟨rfl, rfl, rfl⟩
  · split <;> exact ⟨rfl, rfl, rfl⟩

end Machine

end StatusPanel
