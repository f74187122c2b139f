import StatusPanel.Firmware.Boot
import StatusPanel.Proofs.Controller.Shutdown
import StatusPanel.Proofs.Firmware.CatchUp

/-!
# The firmware after a shutdown

The display task asks for dark key LEDs when it handles a shutdown, and the indicator task sends a
dark frame when it was asked. The key LEDs are *lit* until a shutdown is handled, then *asked* for
dark, and *dark* from the indicator task's next turn on. There is no way back, and no second frame.

## Main definitions

* `Machine.handled`: the events that the display task handles in a run
* `Lights`, `Lights.next`: how far the key LEDs are, and what a move does to them
* `Machine.At`: a machine whose key LEDs are so far

## Main results

* `DisplayTask.Knows.iterate`: one iteration of the display task
* `Machine.At.move`, `Machine.At.panel_move`: what a move does to the key LEDs and to the panel
* `Machine.frames_run`: the frames of a run
* `shutdown_is_final`: what a shutdown does, and what happens after it
-/

namespace StatusPanel

namespace DisplayTask

/-- The event that the task handles when it iterates. -/
def handled? (task : DisplayTask) (shared : Shared) : Option Event :=
  match task with
  | .waiting _ _ _ => shared.events.receive.2
  | .created _ _ | .stuck _ | .halted _ => none

/-- A task that knows whether a shutdown was handled. -/
def Knows (ended : Bool) : DisplayTask → Prop
  | .created _ _ => ended = false
  | .waiting controller _ _ => controller.shutDown = ended
  | .stuck _ | .halted _ => True

/-! ## Due chores -/

section

variable {controller : Controller Panel Bitmap} {ended : Bool} (agenda : Agenda choreCapacity)
  (status : Status) (clock : Nat)

/-- No due chore shuts the controller down. -/
theorem knows_settle (h : controller.shutDown = ended) :
    (settle controller agenda status clock).Knows ended := by
  have hdown : ((dueInputs controller agenda status clock).foldl Controller.take
      controller).shutDown = ended := by
    rw [← state_drained]
    exact Agenda.holds_of_drain
      (P := fun (c : Controller Panel Bitmap) (_ : Agenda choreCapacity) => c.shutDown = ended)
      (fun h => h) (fun h _ _ => (Controller.shutDown_runChore ..).trans h) agenda.size h
  rcases settle_cases controller agenda status clock with ⟨_, _, hs⟩ | hs | hs
  · rw [hs]
    exact hdown
  · rw [hs]
    exact trivial
  · rw [hs]
    exact trivial

/-- Chores that are due after a shutdown do nothing to the panel. -/
theorem panel_settle (h : controller.shutDown = true) :
    (settle controller agenda status clock).panel = controller.surface := by
  have hsame : ∀ inputs : List (Controller.Input choreCapacity),
      inputs.foldl Controller.take controller = controller :=
    List.foldl_fixed' (Controller.take_of_shutDown h)
  have hcases := settle_cases controller agenda status clock
  dsimp only at hcases
  rw [hsame] at hcases
  rcases hcases with ⟨_, _, hs⟩ | hs | hs
  · rw [hs]
    rfl
  · rw [hs]
    rfl
  · rw [hs]
    rfl

end

/-! ## Iterations -/

variable {task : DisplayTask} {shared : Shared} {clock : Nat} {ended : Bool}

/-- A task that waits is woken by an event, which it handles, or by its alarm. -/
theorem wake?_waiting_cases {controller : Controller Panel Bitmap} {agenda : Agenda choreCapacity}
    {alarm : Nat} {awake : Awake}
    (hw : (waiting controller agenda alarm).wake? shared clock = some awake) :
    (∃ event, shared.events.receive.2 = some event ∧
        awake.controller =
          (controller.handle agenda event shared.status (Clock.milliseconds clock)).1 ∧
        awake.shared.darkWanted = (shared.darkWanted ||
          (controller.handle agenda event shared.status (Clock.milliseconds clock)).2.2)) ∨
      (shared.events.receive.2 = none ∧ awake.controller = controller ∧ awake.shared = shared) := by
  unfold wake? at hw
  dsimp only at hw
  rcases hreceive : shared.events.receive with ⟨rest, message⟩
  rw [hreceive] at hw
  cases message with
  | none =>
    dsimp only at hw
    split at hw
    · obtain rfl := Option.some.inj hw
      exact Or.inr ⟨rfl, rfl, rfl⟩
    · cases hw
  | some event =>
    obtain rfl := Option.some.inj hw
    exact Or.inl ⟨event, rfl, rfl, rfl⟩

/-- A task that is woken knows of a shutdown that woke it, and asks for dark key LEDs if it is the
first. -/
theorem Knows.wake {awake : Awake} (h : task.Knows ended)
    (hw : task.wake? shared clock = some awake) :
    awake.controller.shutDown = (ended || task.handled? shared == some .shutdown) ∧
      awake.shared.darkWanted =
        (shared.darkWanted || (!ended && task.handled? shared == some .shutdown)) := by
  have hnothing : shared.darkWanted = (shared.darkWanted || (!ended && false)) := by
    rw [Bool.and_false, Bool.or_false]
  cases task with
  | created panel settings =>
    obtain rfl : ended = false := h
    obtain rfl := Option.some.inj hw
    have hdown := Controller.shutDown_booted panel settings (Clock.milliseconds clock)
      (.empty : Agenda choreCapacity) shared.status (Clock.milliseconds clock)
    exact ⟨hdown, hnothing⟩
  | waiting controller agenda alarm =>
    obtain rfl : controller.shutDown = ended := h
    unfold handled?
    dsimp only
    rcases wake?_waiting_cases hw with ⟨event, hreceive, hcontroller, hdark⟩ |
      ⟨hreceive, hcontroller, hshared⟩
    · rw [hreceive, hcontroller, hdark, Controller.shutDown_handle, Controller.dark_handle]
      exact ⟨rfl, rfl⟩
    · rw [hreceive, hcontroller, hshared]
      exact ⟨(Bool.or_false _).symm, hnothing⟩
  | stuck panel => cases hw
  | halted panel => cases hw

/-- A task that is woken after a shutdown has done nothing to the panel. -/
theorem Knows.surface_wake {awake : Awake} (h : task.Knows true)
    (hw : task.wake? shared clock = some awake) : awake.controller.surface = task.panel := by
  cases task with
  | created panel settings => cases h
  | waiting controller agenda alarm =>
    have hdown : controller.shutDown = true := h
    rcases wake?_waiting_cases hw with ⟨event, -, hcontroller, -⟩ | ⟨-, hcontroller, -⟩
    · rw [hcontroller, Controller.handle_of_shutDown hdown]
      rfl
    · rw [hcontroller]
      rfl
  | stuck panel => cases hw
  | halted panel => cases hw

/-- A task that sleeps on handles no event. -/
theorem handled?_of_wake?_eq_none (hw : task.wake? shared clock = none) :
    task.handled? shared = none := by
  cases task with
  | waiting controller agenda alarm =>
    unfold wake? at hw
    dsimp only at hw
    unfold handled?
    dsimp only
    rcases hreceive : shared.events.receive with ⟨rest, message⟩
    cases message with
    | none => rfl
    | some event =>
      rw [hreceive] at hw
      cases hw
  | _ => rfl

/-- **One iteration.** The task knows of a shutdown that it handled, and asks for dark key LEDs if
it is the first. -/
theorem Knows.iterate (h : task.Knows ended) (shared : Shared) (clock : Nat) :
    (iterate clock (task, shared)).1.Knows
        (ended || task.handled? shared == some .shutdown) ∧
      (iterate clock (task, shared)).2.darkWanted =
        (shared.darkWanted || (!ended && task.handled? shared == some .shutdown)) := by
  cases hw : task.wake? shared clock with
  | none =>
    have hnone : (task.handled? shared == some .shutdown) = false := by
      rw [handled?_of_wake?_eq_none hw]
      rfl
    rw [hnone, Bool.or_false, Bool.and_false, Bool.or_false]
    simp only [DisplayTask.iterate, hw]
    exact ⟨h, trivial⟩
  | some awake =>
    obtain ⟨hdown, hdark⟩ := h.wake hw
    simp only [DisplayTask.iterate, hw]
    exact ⟨knows_settle _ _ _ hdown, hdark⟩

/-- An iteration after a shutdown does nothing to the panel. -/
theorem Knows.panel_iterate (h : task.Knows true) (shared : Shared) (clock : Nat) :
    (DisplayTask.iterate clock (task, shared)).1.panel = task.panel := by
  cases hw : task.wake? shared clock with
  | none => simp only [DisplayTask.iterate, hw]
  | some awake =>
    simp only [DisplayTask.iterate, hw]
    exact (panel_settle _ _ _ ((h.wake hw).1.trans (Bool.true_or _))).trans (h.surface_wake hw)

end DisplayTask

/-! ## The key LEDs -/

/-- How far the key LEDs are. -/
inductive Lights
  /-- No shutdown was handled. -/
  | lit
  /-- A shutdown was handled, and the dark frame is asked for. -/
  | asked
  /-- The dark frame was sent. -/
  | dark
  deriving DecidableEq, Repr

namespace Machine

/-- The event that the display task handles in a move. -/
def handled? (m : Machine) : Move → Option Event
  | .display => if m.isHalted then none else m.display.handled? m.shared
  | _ => none

/-- The events that the display task handles in a run. -/
def handled (m : Machine) : List Move → List Event
  | [] => []
  | move :: rest => (m.handled? move).toList ++ (m.move move).handled rest

end Machine

/-- What a move of a machine does to the key LEDs. -/
def Lights.next (m : Machine) (move : Move) : Lights → Lights
  | .lit => if m.handled? move = some .shutdown then .asked else .lit
  | .asked =>
    match move with
    | .indicator => if m.isHalted then .asked else .dark
    | _ => .asked
  | .dark => .dark

/-- There is no way back. -/
theorem Lights.next_ne_lit {lights : Lights} (h : lights ≠ .lit) (m : Machine) (move : Move) :
    lights.next m move ≠ .lit := by
  cases lights with
  | lit => cases h rfl
  | asked =>
    cases move with
    | indicator =>
      rw [next]
      split <;> nofun
    | _ => nofun
  | dark => nofun

/-- The frames that were sent so far. -/
def Lights.frames : Lights → Array Frame
  | .lit | .asked => #[]
  | .dark => #[darkFrame]

namespace Machine

/-- A machine whose key LEDs are so far. -/
structure At (m : Machine) (lights : Lights) : Prop where
  frames : m.frames = lights.frames
  wanted : m.shared.darkWanted = (lights == .asked)
  display : m.display.Knows (lights != .lit)

variable {m : Machine} {lights : Lights}

/-! ### Moves that leave the key LEDs alone -/

theorem darkWanted_publish (shared : Shared) (event : Event) :
    (shared.publish event).1.darkWanted = shared.darkWanted := by
  unfold Shared.publish Shared.countKeystroke
  by_cases hk : Shared.isKeystroke event <;>
    simp only [hk, if_true, if_false, Bool.false_eq_true]
  split <;> rfl

theorem darkWanted_catchUp (count : Nat) (meter : SpeedMeter) (next : Nat) (shared : Shared) :
    (TypingTask.catchUp count meter next shared).2.darkWanted = shared.darkWanted := by
  induction count generalizing meter next shared with
  | zero => rfl
  | succ count ih =>
    rw [TypingTask.catchUp]
    split
    · exact ih _ _ _
    · rfl

theorem darkWanted_runTyping (m : Machine) :
    m.runTyping.shared.darkWanted = m.shared.darkWanted ∧ m.runTyping.frames = m.frames := by
  unfold runTyping
  split
  · exact ⟨rfl, rfl⟩
  · refine ⟨?_, rfl⟩
    cases m.typing with
    | waiting meter next => exact darkWanted_catchUp _ _ _ _
    | _ => rfl

/-- The indicator task sends one dark frame if it was asked to. -/
theorem runIndicator_of_live (h : m.isHalted = false) :
    m.runIndicator.frames =
        (if m.shared.darkWanted then m.frames.push darkFrame else m.frames) ∧
      m.runIndicator.shared.darkWanted = false := by
  unfold runIndicator
  rw [h]
  cases hd : m.shared.darkWanted <;> simp [IndicatorTask.poll, hd, note]

/-! ### Every move -/

theorem At.of_eq (h : m.At lights) {other : Machine} (hframes : other.frames = m.frames)
    (hwanted : other.shared.darkWanted = m.shared.darkWanted)
    (hdisplay : other.display = m.display) :
    other.At lights :=
  ⟨hframes.trans h.frames, hwanted.trans h.wanted, hdisplay ▸ h.display⟩

theorem At.iterateDisplay (h : m.At lights) : m.iterateDisplay.At (lights.next m .display) := by
  unfold Machine.iterateDisplay
  split
  case isTrue hhalted =>
    have hnext : lights.next m .display = lights := by
      cases lights <;> simp [Lights.next, handled?, hhalted]
    rw [hnext]
    exact h
  case isFalse hlive =>
    obtain ⟨hknows, hwanted⟩ := h.display.iterate m.shared m.clock
    have hhandled : m.handled? .display = m.display.handled? m.shared := if_neg hlive
    rw [← hhandled] at hknows hwanted
    rw [h.wanted] at hwanted
    -- after a shutdown nothing is asked for, and before one only another event or none was handled
    cases lights with
    | lit =>
      by_cases hshut : m.handled? .display = some .shutdown
      · have hnext : Lights.next m .display .lit = .asked := if_pos hshut
        rw [hshut] at hknows hwanted
        rw [hnext]
        exact ⟨h.frames, hwanted, hknows⟩
      · have hnext : Lights.next m .display .lit = .lit := if_neg hshut
        rw [beq_eq_false_iff_ne.2 hshut] at hknows hwanted
        rw [hnext]
        exact ⟨h.frames, hwanted, hknows⟩
    | asked => exact ⟨h.frames, hwanted, hknows⟩
    | dark => exact ⟨h.frames, hwanted, hknows⟩

theorem At.runIndicator (h : m.At lights) : m.runIndicator.At (lights.next m .indicator) := by
  cases hhalted : m.isHalted with
  | true =>
    have hsame : m.runIndicator = m := if_pos hhalted
    rw [hsame]
    cases lights <;> simpa [Lights.next, handled?, hhalted] using h
  | false =>
    obtain ⟨hframes, hwanted⟩ := runIndicator_of_live hhalted
    have hdisplay := h.display
    rw [← m.display_runIndicator] at hdisplay
    rw [h.wanted, h.frames] at hframes
    cases lights with
    | lit => exact ⟨hframes, hwanted, hdisplay⟩
    | asked =>
      have hnext : Lights.next m .indicator .asked = .dark := if_neg (Bool.eq_false_iff.1 hhalted)
      rw [hnext]
      exact ⟨hframes, hwanted, hdisplay⟩
    | dark => exact ⟨hframes, hwanted, hdisplay⟩

/-- **One move** takes the key LEDs as far as it says. -/
theorem At.move (h : m.At lights) (move : Move) : (m.move move).At (lights.next m move) := by
  have hstill (hmove : m.handled? move = none) (hother : move ≠ .indicator) :
      lights.next m move = lights := by
    cases lights with
    | lit => rw [Lights.next, hmove]; rfl
    | asked => cases move <;> first | rfl | cases hother rfl
    | dark => rfl
  cases move with
  | publish event =>
    rw [hstill rfl nofun]
    exact h.of_eq rfl (darkWanted_publish m.shared event) rfl
  | wait time =>
    rw [hstill rfl nofun]
    exact h.of_eq rfl rfl rfl
  | display => exact h.iterateDisplay
  | typing =>
    obtain ⟨hwanted, hframes⟩ := m.darkWanted_runTyping
    rw [hstill rfl nofun]
    exact h.of_eq hframes hwanted m.display_runTyping
  | indicator => exact h.runIndicator

/-- **A move after a shutdown** sends nothing to the panel. -/
theorem At.panel_move (h : m.At lights) (hlights : lights ≠ .lit) (move : Move) :
    (m.move move).display.panel = m.display.panel := by
  have hknows : m.display.Knows true := by
    have hdisplay := h.display
    rwa [bne_iff_ne.2 hlights] at hdisplay
  cases move with
  | display =>
    show m.iterateDisplay.display.panel = _
    unfold Machine.iterateDisplay
    split
    · rfl
    · exact hknows.panel_iterate m.shared m.clock
  | typing => exact congrArg _ m.display_runTyping
  | indicator => exact congrArg _ m.display_runIndicator
  | publish event => rfl
  | wait time => rfl

/-! ### Runs -/

/-- Once the dark frame was sent, no other one is. -/
theorem At.run_dark (h : m.At .dark) (moves : List Move) :
    (moves.foldl Machine.move m).At .dark := by
  induction moves generalizing m with
  | nil => exact h
  | cons move rest ih => exact ih (h.move move)

/-- After a shutdown the panel is left alone. -/
theorem At.run (h : m.At lights) (hlights : lights ≠ .lit) (moves : List Move) :
    (∃ after, after ≠ .lit ∧ (moves.foldl Machine.move m).At after) ∧
      (moves.foldl Machine.move m).display.panel = m.display.panel := by
  -- Induction on the moves: each leaves the panel alone, and none leads back before the shutdown.
  induction moves generalizing m lights with
  | nil => exact ⟨⟨lights, hlights, h⟩, rfl⟩
  | cons move rest ih =>
    obtain ⟨hafter, hpanel⟩ := ih (h.move move) (Lights.next_ne_lit hlights m move)
    exact ⟨hafter, hpanel.trans (h.panel_move hlights move)⟩

/-- The key LEDs are lit until a shutdown is handled, and never after. -/
theorem At.run_lit (h : m.At .lit) (moves : List Move) :
    if Event.shutdown ∈ m.handled moves then
      ∃ after, after ≠ .lit ∧ (moves.foldl Machine.move m).At after
    else (moves.foldl Machine.move m).At .lit := by
  -- Induction on the moves: the first one handles a shutdown, or leaves the key LEDs lit.
  induction moves generalizing m with
  | nil => exact h
  | cons move rest ih =>
    have hmove := h.move move
    by_cases hshut : m.handled? move = some .shutdown
    · have hnext : Lights.next m move .lit = .asked := if_pos hshut
      have hmem : Event.shutdown ∈ m.handled (move :: rest) := by
        rw [handled, hshut]
        exact List.mem_cons_self ..
      rw [hnext] at hmove
      rw [if_pos hmem]
      exact (hmove.run nofun rest).1
    · have hnext : Lights.next m move .lit = .lit := if_neg hshut
      have hmem : Event.shutdown ∈ m.handled (move :: rest) ↔
          Event.shutdown ∈ (m.move move).handled rest := by
        rw [handled, List.mem_append, Option.mem_toList]
        exact or_iff_right hshut
      rw [hnext] at hmove
      simp only [hmem]
      exact ih hmove

/-- A machine is booted with its key LEDs lit. -/
theorem at_boot (text : String) (bus : Bus) (clock : Nat) :
    (Machine.boot text bus clock).machine.At .lit := by
  have hassembled (panel : Panel) (settings : Settings) :
      (Machine.assemble panel settings clock).At .lit := ⟨rfl, rfl, rfl⟩
  -- whatever the settings and the panel are, the boot only publishes an event and notes records
  unfold Machine.boot
  rcases loadSettings text with ⟨settings, loaded⟩
  dsimp only
  generalize Panel.bringUp _ = up
  obtain ⟨panel, reply⟩ := up
  exact (hassembled panel settings).of_eq rfl (darkWanted_publish _ _) rfl

/-- **The dark frame.** No frame is sent, or one dark frame and a shutdown was handled. Once a
shutdown was handled nothing is sent to the panel, and the frame is sent when the indicator task has
its turn, and never again. -/
theorem frames_run (text : String) (bus : Bus) (clock : Nat) (moves : List Move) :
    let booted := (Machine.boot text bus clock).machine
    let m := moves.foldl Machine.move booted
    (m.frames = #[] ∨ m.frames = #[darkFrame] ∧ Event.shutdown ∈ booted.handled moves) ∧
      (Event.shutdown ∈ booted.handled moves → ∀ later : List Move,
        (later.foldl Machine.move m).display.panel = m.display.panel ∧
          (m.isHalted = false →
            (later.foldl Machine.move m.runIndicator).frames = #[darkFrame])) := by
  intro booted m
  have hrun := (at_boot text bus clock).run_lit moves
  split at hrun
  case isTrue hhandled =>
    obtain ⟨lights, hlights, hat⟩ := hrun
    constructor
    · cases lights with
      | lit => cases hlights rfl
      | asked => exact Or.inl hat.frames
      | dark => exact Or.inr ⟨hat.frames, hhandled⟩
    · refine fun _ later => ⟨(hat.run hlights later).2, fun hlive => ?_⟩
      -- the turn of the indicator task sends the frame, unless it was sent before
      have hturn := hat.runIndicator
      have hnext : lights.next m .indicator = .dark := by
        cases lights with
        | lit => cases hlights rfl
        | asked => exact if_neg (Bool.eq_false_iff.1 hlive)
        | dark => rfl
      rw [hnext] at hturn
      exact (hturn.run_dark later).frames
  case isFalse hhandled =>
    exact ⟨Or.inl hrun.frames, fun h => absurd h hhandled⟩

end Machine

/-! ## The shutdown -/

section

variable {S ι : Type} [Surface S ι] {capacity : Nat}

/-- **The shutdown is final.** A run of a controller boots it once at most, before the shutdown or
after it. Whatever happened to the controller, its agenda and its key LEDs before, the first
shutdown sends one power command, whatever the power state is and whatever the surface answers,
switches the power state off and asks once for dark key LEDs. From then on nothing but a boot
changes the controller, so no call of its surface is made, and the key LEDs are not asked for again.
Calls leave the agenda as it is as well, and a chore that runs is cancelled. Until the shutdown the
chores of the controller are registered once each; when one of them has run after it, no entry has
its token any more, and it is never polled.

In the firmware the key LEDs are sent no frame, or one frame with every LED of the board dark after
a shutdown was handled. From then on nothing is sent to the panel, and the frame is sent when the
indicator task has its next turn, and never again. -/
theorem shutdown_is_final (surface : S) (settings : Settings) (born : UInt32)
    (earlier later : List (Console.Act ι)) (down : Console.Act ι)
    (hearlier : ∀ act ∈ earlier, act.isShutdown = false) (hdown : down.isShutdown = true)
    (honce : (earlier ++ down :: later).countP Console.Act.isBoot ≤ 1)
    (text : String) (bus : Bus) (clock : Nat) (moves : List Move) :
    let k : Console (Traced S ι) ι capacity :=
      (Console.start (Traced.fresh surface) settings born).run earlier
    let ended := k.act down
    let after := ended.run later
    let booted := (Machine.boot text bus clock).machine
    let m := moves.foldl Machine.move booted
    let dark : Frame := List.replicate Board.ledCount .black
    (ended.controller.surface.trace = k.controller.surface.trace ++
          [(.power false, (Surface.power k.controller.surface.surface false).2)] ∧
        ended.controller.power = { k.controller.power with powered := false } ∧
        ended.agenda = k.agenda ∧ k.darks = 0 ∧ ended.darks = 1) ∧
      (after.darks = 1 ∧
        (∀ act : Console.Act ι, act.isBoot = false →
          (after.act act).controller = after.controller ∧ (after.act act).darks = 1) ∧
        (∀ act : Console.Act ι, act.isCall = true → after.act act = after) ∧
        ∀ chore status now,
          after.controller.runChore chore status now = (after.controller, .cancel)) ∧
      (∀ chore token, k.controller.terms.tokenOf chore = some token →
        (token, chore) ∈ k.agenda.labels ∧ k.agenda.carriers token = 1) ∧
      (∀ before ran rest, later = before ++ ran :: rest → ∀ chore token,
        (ended.run before).controller.terms.tokenOf chore = some token →
          ran.runs token = true → after.agenda.carriers token = 0 ∧
            ∀ now other, (after.agenda.poll now).2 ≠ some (token, other)) ∧
      (m.frames = #[] ∨ m.frames = #[dark] ∧ Event.shutdown ∈ booted.handled moves) ∧
      (Event.shutdown ∈ booted.handled moves → ∀ following : List Move,
        (following.foldl Machine.move m).display.panel = m.display.panel ∧
          (m.isHalted = false →
            (following.foldl Machine.move m.runIndicator).frames = #[dark])) := by
  intro k ended after booted m dark
  have hbegun : k.Begun := Console.begun_run (Traced.fresh surface) settings born hearlier
  obtain ⟨htrace, hpower, hshut, hdarks, hagenda⟩ := Console.act_shutdown hbegun.live hdown
  rw [hbegun.darks] at hdarks
  obtain ⟨hafter, hdarksAfter⟩ := Console.run_shutDown hshut later
  have hone : after.darks = 1 := hdarksAfter.trans hdarks
  refine ⟨⟨htrace, hpower, hagenda, hbegun.darks, hdarks⟩, ⟨hone, fun act hboot => ?_,
    fun act => Console.act_of_isCall hafter, Controller.runChore_of_shutDown hafter⟩, ?_, ?_,
    Machine.frames_run text bus clock moves⟩
  · obtain ⟨hcontroller, hkept⟩ := Console.controller_act_of_shutDown hafter hboot
    exact ⟨hcontroller, hkept.trans hone⟩
  · -- the boot of the run is the only one, so no other chore has the token
    intro chore token htoken
    have hlabel := hbegun.enrolled chore token htoken
    have hearlyOnce : earlier.countP Console.Act.isBoot ≤ 1 := by
      rw [List.countP_append] at honce
      omega
    exact ⟨hlabel, Nat.le_antisymm
      (Console.carriers_run_le_one (Traced.fresh surface) settings born hearlyOnce token)
      (List.count_pos_iff.2 (List.mem_map_of_mem hlabel))⟩
  · rintro before ran rest rfl chore token htoken hran
    -- the acts until the chore runs, from the start of the run on
    let acts := earlier ++ down :: before
    have hacts : (Console.start (Traced.fresh surface) settings born).run acts =
        ended.run before := List.foldl_append ..
    have hall : (Console.start (Traced.fresh surface) settings born).run (acts ++ ran :: rest) =
        after := by
      rw [List.append_assoc]
      exact List.foldl_append ..
    have hshutBefore := (Console.run_shutDown hshut before).1
    rw [← hacts] at hshutBefore htoken
    have hnone := Console.carriers_run_eq_zero (Traced.fresh surface) settings born
      (by rwa [List.append_assoc]) hshutBefore htoken hran
    rw [hall] at hnone
    exact ⟨hnone, Agenda.poll_ne_of_carriers hnone⟩

/-- A boot, a key, and the host's suspend. -/
def toSuspend : List (Console.Act Asset) :=
  [.step (.boot some (.boot .initial) 0), .step (.event (.key true) (.boot .initial) 10), .suspend]

/-- The host's resume, a second shutdown, and the redraw of the bars that the key asked for. -/
def fromSuspend : List (Console.Act Asset) :=
  [.wake, .shutdown, .step (.poll 40), .step (.run 1 .barRedraw (.boot .initial) 40 40)]

/-- A start, and a shutdown that is handled. -/
def toShutdown : List Move :=
  Machine.turn 0 1 ++ [.publish .shutdown, .display, .display]

/-- A panel that is suspended is shut down. -/
theorem shutdown_is_final_suspended :
    let k : Console (Traced Recorder Asset) Asset 4 :=
      (Console.start (Traced.fresh {}) .standard 0).run toSuspend
    let down : Console.Act Asset := .step (.event .shutdown (.boot .initial) 30)
    let after := (k.act down).run fromSuspend
    let m := toShutdown.foldl Machine.move (Machine.boot "" Watch.deadBus 0).machine
    (∀ act ∈ toSuspend, act.isShutdown = false) ∧ down.isShutdown = true ∧
      (toSuspend ++ down :: fromSuspend).countP Console.Act.isBoot = 1 ∧
      (k.act down).darks = 1 ∧ after.darks = 1 ∧ after.act .wake = after ∧
      (∀ now other, (after.agenda.poll now).2 ≠ some (1, other)) ∧
      m.frames = #[] ∧ m.runIndicator.frames = #[List.replicate 50 ⟨0, 0, 0⟩] := by
  intro k down after m
  have hearlier : ∀ act ∈ toSuspend, act.isShutdown = false := by decide
  have honce : (toSuspend ++ down :: fromSuspend).countP Console.Act.isBoot = 1 := by decide
  have hlater : fromSuspend = [.wake, .shutdown, .step (.poll 40)] ++
      .step (.run 1 .barRedraw (.boot .initial) 40 40) :: [] := rfl
  have htoken : ((k.act down).run [.wake, .shutdown,
      .step (.poll 40)]).controller.terms.tokenOf .barRedraw = some 1 := by decide +kernel
  have hhandled : Event.shutdown ∈
      (Machine.boot "" Watch.deadBus 0).machine.handled toShutdown := by decide +kernel
  have hlive : m.isHalted = false := by decide +kernel
  have hsent : m.frames = #[] := by decide +kernel
  obtain ⟨⟨-, -, -, -, hdarks⟩, ⟨hafter, -, hcalls, -⟩, -, hgone, -, hframes⟩ :=
    @shutdown_is_final Recorder Asset _ 4 {} .standard 0 toSuspend fromSuspend down hearlier rfl
      (Nat.le_of_eq honce) "" Watch.deadBus 0 toShutdown
  have hpoll := (hgone _ _ _ hlater .barRedraw 1 htoken rfl).2
  have hdark := (hframes hhandled []).2 hlive
  rw [List.foldl_nil] at hdark
  exact ⟨hearlier, rfl, honce, hdarks, hafter, hcalls .wake rfl, hpoll, hsent, hdark⟩

end

end StatusPanel
