import StatusPanel.Proofs.Controller.Incremental
import StatusPanel.Proofs.Firmware.Abreast
import StatusPanel.Proofs.Panel.Steady
import StatusPanel.Proofs.Screen.Looks

/-!
# Catching up with events that were dropped

An event for a full mailbox is dropped, though the shared status follows it. The bar redraw reads
that status, but it repaints only the typing speed and the lighting: it does not catch up with
layers, default layers or locks. An observer of the firmware keeps a ledger: the status that the
display was told, whether its bars were redrawn since the shared status last changed, and whether
any event was dropped.

## Main definitions

* `UpToDate`: the events that wait bring a status up to another, apart from the typing speed
* `Ledger`, `Watch`: the ledger, and the firmware with its observer
* `Controller.Follows`, `DisplayTask.Follows`: the display is in step with the ledger

## Main results

* `Watch.Follows.run`: in every run the display stays in step with the ledger
* `Watch.abreast_run`: what the panel answers changes nothing in a run and its ledger
* `Watch.caughtUp_iff_looksLike`: when the panel has caught up with the shared status
* `Watch.not_caughtUp_lostReport`: a run in which it has not
-/

namespace StatusPanel

/-! ## Events that wait -/

namespace Status

/-- What the events reported: the status without the typing speed. -/
def reported (s : Status) : Status := { s with wpm := 0 }

theorem reported_apply (s : Status) (event : Event) :
    (s.apply event).reported = s.reported.apply event := by
  cases event <;> rfl

/-- Of two events, the order does not count or the later one alone does. -/
theorem apply_apply_or (s : Status) (e f : Event) :
    (s.apply e).apply f = (s.apply f).apply e ∨ (s.apply e).apply f = s.apply f := by
  cases e <;> cases f <;> first | exact Or.inl rfl | exact Or.inr rfl

/-- An event before others could as well come after them, or is forgotten. -/
theorem foldl_apply_or (events : List Event) (s : Status) (e : Event) :
    events.foldl apply (s.apply e) = (events.foldl apply s).apply e ∨
      events.foldl apply (s.apply e) = events.foldl apply s := by
  -- Induction on the events: the event is moved past the first one, or lost there.
  induction events generalizing s with
  | nil => exact Or.inl rfl
  | cons f rest ih =>
    rw [List.foldl_cons, List.foldl_cons]
    rcases s.apply_apply_or e f with h | h
    · rw [h]
      exact ih (s.apply f)
    · rw [h]
      exact Or.inr rfl

end Status

/-- The events that wait bring one status up to another, apart from the typing speed. -/
def UpToDate (events : List Event) (shown status : Status) : Prop :=
  events.foldl Status.apply shown.reported = status.reported

namespace UpToDate

variable {events : List Event} {shown status : Status}

theorem publish (h : UpToDate events shown status) (event : Event) :
    UpToDate (events ++ [event]) shown (status.apply event) := by
  rw [UpToDate, List.foldl_append, h, Status.reported_apply]
  rfl

theorem handle {event : Event} (h : UpToDate (event :: events) shown status) :
    UpToDate events (shown.apply event) status := by
  rw [UpToDate, Status.reported_apply]
  exact h

/-- An event that changes nothing of the status may be handled out of order. -/
theorem apply_shown (h : UpToDate events shown status) (event : Event)
    (hknown : status.reported.apply event = status.reported) :
    UpToDate events (shown.apply event) status := by
  rw [UpToDate, Status.reported_apply]
  rcases Status.foldl_apply_or events shown.reported event with he | he
  · -- after the events that wait it changes nothing
    rw [he, h, hknown]
  · rw [he, h]

/-- A display that has not started yet will start from the status, and handle the events again. -/
theorem publish_self (h : UpToDate events status status) (event : Event) :
    UpToDate (events ++ [event]) (status.apply event) (status.apply event) := by
  refine (h.publish event).apply_shown event ?_
  rw [Status.reported_apply, Status.apply_apply_self]

/-- The bar redraw shows the typing speed and the lighting of the status. -/
theorem redraw (h : UpToDate events shown status) :
    UpToDate events { shown with wpm := status.wpm, lighting := status.lighting } status :=
  h.apply_shown (.lighting status.lighting) rfl

end UpToDate

theorem Status.looksLike_of_reported_eq {a b : Status} (h : a.reported = b.reported) :
    a.LooksLike b := by
  obtain ⟨layers, defaultLayers, locks, wpm, lighting⟩ := a
  cases h
  exact ⟨rfl, fun _ _ => rfl, rfl, rfl, rfl, rfl, rfl, fun _ _ => rfl⟩

/-! ## The ledger -/

/-- What an observer of the display writes down. -/
structure Ledger where
  /-- The status that the display was told. -/
  shown : Status
  /-- Whether the bars were redrawn on a panel that was on, since the shared status last changed and
  since an event was last published. -/
  redrawn : Bool := false
  /-- Whether no event was dropped. -/
  lossless : Bool := true

namespace Controller

variable {S ι : Type} {capacity : Nat}

/-- Whether the controller draws when it is asked to redraw the bars. -/
def isOn (c : Controller S ι) : Bool := !c.shutDown && c.power.powered

/-- Whether an input makes the controller redraw the bars. -/
def redraws (c : Controller S ι) : Input capacity → Bool
  | .barRedraw _ => c.isOn
  | _ => false

end Controller

namespace Ledger

variable {capacity : Nat}

/-- The ledger after an input of a controller. -/
def take {S ι : Type} [Surface S ι] (l : Ledger) (c : Controller S ι)
    (input : Controller.Input capacity) : Ledger :=
  { l with shown := c.told l.shown input, redrawn := l.redrawn || c.redraws input }

/-- The ledger after inputs of a controller. -/
def takeAll {S ι : Type} [Surface S ι] (l : Ledger) (c : Controller S ι) :
    List (Controller.Input capacity) → Ledger
  | [] => l
  | input :: rest => (l.take c input).takeAll (c.take input) rest

/-- The ledger when something woke the display task: its start, an event, or its alarm. -/
def wake (l : Ledger) (task : DisplayTask) (shared : Shared) (clock : Nat) : Ledger :=
  match task, shared.events.receive.2 with
  | .created _ _, _ => { l with shown := shared.status }
  | .waiting controller agenda _, some event =>
    l.take controller (.event agenda event shared.status (Clock.milliseconds clock))
  | _, _ => l

/-- The ledger after a move. -/
def move (l : Ledger) (m : Machine) : Move → Ledger
  | .publish _ => { l with redrawn := false, lossless := l.lossless && !m.shared.events.isFull }
  | .display =>
    if m.isHalted then l
    else
      match m.display.wake? m.shared m.clock with
      | some awake =>
        (l.wake m.display m.shared m.clock).takeAll awake.controller
          (DisplayTask.dueInputs awake.controller awake.agenda awake.shared.status m.clock)
      | none => l
  | .typing => { l with redrawn := l.redrawn && m.runTyping.shared.status == m.shared.status }
  | .wait _ | .indicator => l

end Ledger

/-- The firmware and the ledger of its observer. -/
structure Watch where
  machine : Machine
  ledger : Ledger

namespace Watch

/-- A firmware with a panel brought up on a bus, before any task has run. -/
def start (bus : Bus) (settings : Settings) (clock : Nat) : Watch where
  machine := .assemble (Panel.bringUp { bus, address := settings.display.address }).1 settings clock
  ledger := { shown := .boot settings.lighting }

/-- The firmware and the ledger after a move. -/
def move (w : Watch) (m : Move) : Watch := ⟨w.machine.move m, w.ledger.move w.machine m⟩

/-- The firmware and the ledger after moves. -/
def run (w : Watch) (moves : List Move) : Watch := moves.foldl move w

/-- The observer does not disturb the firmware. -/
theorem machine_run (w : Watch) (moves : List Move) :
    (w.run moves).machine = moves.foldl Machine.move w.machine := by
  induction moves generalizing w with
  | nil => rfl
  | cons m rest ih => exact ih (w.move m)

end Watch

/-! ## The ledger and the panel -/

namespace Controller

variable {S T ι κ : Type} {capacity : Nat} {c : Controller S ι} {d : Controller T κ}

theorem Abreast.isOn (h : Abreast c d) : c.isOn = d.isOn := by
  rw [Controller.isOn, Controller.isOn, h.shutDown, h.power]

theorem Abreast.redraws (h : Abreast c d) (input : Input capacity) :
    c.redraws input = d.redraws input := by
  cases input <;> first | rfl | exact h.isOn

theorem Abreast.told (h : Abreast c d) (shown : Status) (input : Input capacity) :
    c.told shown input = d.told shown input := by
  cases input <;> simp only [Controller.told, h.shutDown, h.power]

end Controller

namespace Ledger

theorem takeAll_of_abreast {S T ι κ : Type} [Surface S ι] [Surface T κ] {capacity : Nat}
    {c : Controller S ι} {d : Controller T κ} (h : c.Abreast d) (l : Ledger)
    (inputs : List (Controller.Input capacity)) : l.takeAll c inputs = l.takeAll d inputs := by
  induction inputs generalizing c d l with
  | nil => rfl
  | cons input rest ih =>
    have htake : l.take c input = l.take d input := by
      rw [take, take, h.told, h.redraws]
    rw [takeAll, takeAll, htake]
    exact ih (h.take input) _

theorem wake_of_abreast {task other : DisplayTask} (h : task.Abreast other) (l : Ledger)
    (shared : Shared) (clock : Nat) : l.wake task shared clock = l.wake other shared clock := by
  cases task with
  | waiting controller agenda alarm =>
    cases other with
    | waiting controller' agenda' alarm' =>
      obtain ⟨hc, rfl, rfl⟩ := h
      unfold wake
      cases shared.events.receive.2 with
      | none => rfl
      | some event =>
        dsimp only
        rw [take, take, hc.told, hc.redraws]
    | _ => cases h
  | _ => cases other <;> first | rfl | cases h

theorem move_of_abreast {m n : Machine} (h : m.Abreast n) (l : Ledger) (mv : Move) :
    l.move m mv = l.move n mv := by
  cases mv with
  | publish event => rw [move, move, h.shared]
  | wait time => rfl
  | display =>
    have hwake := h.display.wake? n.shared n.clock
    rw [move, move, h.isHalted, h.shared, h.clock, wake_of_abreast h.display]
    split
    · rfl
    · generalize m.display.wake? n.shared n.clock = first at hwake ⊢
      generalize n.display.wake? n.shared n.clock = second at hwake ⊢
      cases hwake with
      | none => rfl
      | some ha =>
        dsimp only
        rw [takeAll_of_abreast ha.controller, ha.agenda, ha.shared,
          DisplayTask.dueInputs_of_abreast ha.controller]
  | typing => rw [move, move, h.runTyping.shared, h.shared]
  | indicator => rfl

end Ledger

namespace Watch

/-- Firmwares that differ in their panels, with the same ledger. -/
structure Abreast (w v : Watch) : Prop where
  machine : w.machine.Abreast v.machine
  ledger : w.ledger = v.ledger

theorem Abreast.run {w v : Watch} (h : w.Abreast v) (moves : List Move) :
    (w.run moves).Abreast (v.run moves) := by
  induction moves generalizing w v with
  | nil => exact h
  | cons m rest ih =>
    refine ih ⟨h.machine.move m, ?_⟩
    rw [move, move, h.ledger]
    exact Ledger.move_of_abreast h.machine _ m

/-- Whatever writes its bus refuses, the firmware runs the same and has the same ledger. -/
theorem abreast_run (bus other : Bus) (settings : Settings) (clock : Nat) (moves : List Move) :
    ((start bus settings clock).run moves).Abreast ((start other settings clock).run moves) := by
  have hstart : (start bus settings clock).Abreast (start other settings clock) :=
    ⟨⟨rfl, rfl, rfl, rfl, rfl⟩, rfl⟩
  exact hstart.run moves

end Watch

/-! ## The display in step with the ledger -/

namespace Controller

/-- A controller in step with the ledger: its panel holds the picture of the status that it was
told. -/
structure Follows (c : Controller Panel Bitmap) (before : Memory) (scale : UInt16)
    (shared : Shared) (l : Ledger) : Prop where
  tracks : Tracks c .builtin scale l.shown
  faithful : c.surface.Faithful before
  /-- The bar redraw has caught up with the typing speed. -/
  wpm : l.redrawn = true → l.shown.wpm = shared.status.wpm
  /-- If no event was dropped, those that wait are all that is missing. -/
  upToDate : l.lossless = true → c.shutDown = false →
    UpToDate shared.events.messages l.shown shared.status

theorem shutDown_of_take {S ι : Type} [Surface S ι] {capacity : Nat} {c : Controller S ι}
    {input : Input capacity} (h : (c.take input).shutDown = false) : c.shutDown = false := by
  cases hc : c.shutDown with
  | false => rfl
  | true =>
    rw [take_of_shutDown hc, hc] at h
    cases h

theorem told_barRedraw {S ι : Type} {capacity : Nat} (c : Controller S ι) (shown status : Status) :
    c.told shown (.barRedraw status : Input capacity) =
      if c.isOn then { shown with wpm := status.wpm, lighting := status.lighting } else shown := by
  cases hs : c.shutDown <;> cases hp : c.power.powered <;> simp [told, isOn, hs, hp]

namespace Follows

variable {c : Controller Panel Bitmap} {before : Memory} {scale : UInt16} {shared : Shared}
  {l : Ledger}

theorem idleCheck (h : Follows c before scale shared l) (now : UInt32) :
    Follows (c.take (.idleCheck now : Input choreCapacity)) before scale shared
      (l.take c (.idleCheck now : Input choreCapacity)) where
  tracks := h.tracks.take _
  faithful := .of_driven (c.driven_take _) h.faithful
  wpm hr := h.wpm (by simpa [Ledger.take, redraws] using hr)
  upToDate hl hs := h.upToDate hl (shutDown_of_take hs)

theorem barRedraw (h : Follows c before scale shared l) :
    Follows (c.take (.barRedraw shared.status : Input choreCapacity)) before scale shared
      (l.take c (.barRedraw shared.status : Input choreCapacity)) := by
  constructor
  case tracks => exact h.tracks.take _
  case faithful => exact .of_driven (c.driven_take _) h.faithful
  case wpm =>
    intro hr
    rw [Ledger.take, told_barRedraw]
    cases hon : c.isOn with
    | true => rfl
    | false => exact h.wpm (by simpa [Ledger.take, redraws, hon] using hr)
  case upToDate =>
    intro hl hs
    have hu := h.upToDate hl (shutDown_of_take hs)
    rw [Ledger.take, told_barRedraw]
    cases c.isOn with
    | true => exact hu.redraw
    | false => exact hu

theorem takeAll (h : Follows c before scale shared l) {inputs : List (Input choreCapacity)}
    (hi : ∀ input ∈ inputs, (∃ now, input = .idleCheck now) ∨ input = .barRedraw shared.status) :
    Follows (inputs.foldl Controller.take c) before scale shared (l.takeAll c inputs) := by
  induction inputs generalizing c l with
  | nil => exact h
  | cons input rest ih =>
    have hrest := fun i hmem => hi i (List.mem_cons_of_mem _ hmem)
    rcases hi input List.mem_cons_self with ⟨now, rfl⟩ | rfl
    · exact ih (h.idleCheck now) hrest
    · exact ih h.barRedraw hrest

/-- An event that is handled is missing no longer. -/
theorem event (h : Follows c before scale shared l) (agenda : Agenda choreCapacity) {event : Event}
    (now : UInt32) {rest : Mailbox eventCapacity Event} {dark : Bool}
    (hreceive : shared.events.receive = (rest, some event)) :
    Follows (c.take (.event agenda event shared.status now)) before scale
      { shared with events := rest, darkWanted := dark }
      (l.take c (.event agenda event shared.status now)) := by
  constructor
  case tracks => exact h.tracks.take _
  case faithful => exact .of_driven (c.driven_take _) h.faithful
  case wpm =>
    intro hr
    have hshown := h.wpm (by simpa [Ledger.take, redraws] using hr)
    simp only [Ledger.take, told]
    split
    · exact hshown
    · rwa [Status.wpm_apply]
  case upToDate =>
    intro hl hs
    have hlive := shutDown_of_take hs
    have hu := h.upToDate hl hlive
    rw [DisplayTask.messages_of_receive hreceive] at hu
    simp only [Ledger.take, told, hlive]
    exact hu.handle

/-- With no event waiting and the bars redrawn, the panel shows the picture of the shared status
exactly if the status that it was told looks like it. -/
theorem pixel_memory_eq_picture_iff (h : Follows c before scale shared l)
    (hempty : shared.events.messages = []) (hon : c.isOn = true) (hr : l.redrawn = true) :
    ((∀ x y, OnPanel x y → (c.surface.memory before).pixel x y =
        Painter.picture .builtin scale shared.status x y) ↔ l.shown.LooksLike shared.status) ∧
      (l.lossless = true → l.shown.LooksLike shared.status) := by
  have hwpm := h.wpm hr
  constructor
  · rw [← Painter.picture_eq_iff_looksLike scale hwpm]
    refine forall₃_congr fun x y hxy => ?_
    rw [h.faithful.pixel_memory hxy, h.tracks.pixel_eq_picture]
  · intro hl
    have hs : c.shutDown = false := by
      cases hs : c.shutDown with
      | false => rfl
      | true => simp [isOn, hs] at hon
    have hu := h.upToDate hl hs
    rw [hempty] at hu
    exact Status.looksLike_of_reported_eq hu

end Follows

/-- The first screen shows the shared status, whatever the panel showed before. -/
theorem follows_booted {before : Memory} {shared : Shared} {panel : Panel}
    (hpanel : panel.Faithful before) (settings : Settings) (now : UInt32) (l : Ledger)
    (hu : l.lossless = true → UpToDate shared.events.messages shared.status shared.status) :
    (booted panel settings now (.empty : Agenda choreCapacity) shared.status now).Follows before
      settings.typing.scaleMax shared { l with shown := shared.status } where
  tracks := tracks_booted hpanel.ready settings now .empty shared.status now
  faithful := .of_driven (driven_booted panel settings now .empty shared.status now) hpanel
  wpm _ := rfl
  upToDate hl _ := hu hl

end Controller

namespace DisplayTask

variable {before : Memory} {scale : UInt16} {shared : Shared} {l : Ledger} {task : DisplayTask}
  {clock : Nat}

/-- The display task in step with the ledger. -/
def Follows (before : Memory) (scale : UInt16) (shared : Shared) (l : Ledger) : DisplayTask → Prop
  | .created panel settings =>
    panel.Faithful before ∧ settings.typing.scaleMax = scale ∧
      (l.lossless = true → UpToDate shared.events.messages shared.status shared.status)
  | .waiting controller _ _ => controller.Follows before scale shared l
  | .stuck _ | .halted _ => True

/-- Whether the task waits with a panel that is on. -/
def isOn : DisplayTask → Bool
  | .waiting controller _ _ => controller.isOn
  | _ => false

theorem Follows.wake {awake : Awake} (h : task.Follows before scale shared l)
    (hw : task.wake? shared clock = some awake) :
    awake.controller.Follows before scale awake.shared (l.wake task shared clock) := by
  cases task with
  | created panel settings =>
    obtain ⟨hpanel, rfl, hu⟩ := h
    obtain rfl := Option.some.inj hw
    exact Controller.follows_booted hpanel settings (Clock.milliseconds clock) l hu
  | waiting controller agenda alarm =>
    unfold Ledger.wake
    unfold wake? at hw
    dsimp only at hw
    rcases hreceive : shared.events.receive with ⟨rest, message⟩
    rw [hreceive] at hw
    cases message with
    | none =>
      -- the alarm woke the task, and nothing changed yet
      dsimp only at hw
      split at hw
      · obtain rfl := Option.some.inj hw
        exact h
      · cases hw
    | some event =>
      obtain rfl := Option.some.inj hw
      exact Controller.Follows.event h agenda (Clock.milliseconds clock) hreceive
  | stuck panel => cases hw
  | halted panel => cases hw

theorem follows_settle {controller : Controller Panel Bitmap} {agenda : Agenda choreCapacity}
    (h : controller.Follows before scale shared l) :
    (settle controller agenda shared.status clock).Follows before scale shared
      (l.takeAll controller (dueInputs controller agenda shared.status clock)) := by
  have hchores : ∀ input ∈ dueInputs controller agenda shared.status clock, _ :=
    fun _ => mem_dueInputs
  have hdue := h.takeAll hchores
  rcases settle_cases controller agenda shared.status clock with ⟨_, _, hs⟩ | hs | hs
  · rw [hs]
    exact hdue
  · rw [hs]
    exact trivial
  · rw [hs]
    exact trivial

/-- A published event waits, or is dropped. -/
theorem Follows.publish (h : task.Follows before scale shared l) (event : Event) :
    task.Follows before scale (shared.publish event).1
      { l with redrawn := false, lossless := l.lossless && !shared.events.isFull } := by
  have hroom : (l.lossless && !shared.events.isFull) = true → l.lossless = true ∧
      (shared.publish event).1.events.messages = shared.events.messages ++ [event] := by
    intro hl
    rw [Bool.and_eq_true, Bool.not_eq_true'] at hl
    rw [Shared.messages_publish, if_neg (by simp [hl.2])]
    exact ⟨hl.1, rfl⟩
  cases task with
  | created panel settings =>
    obtain ⟨hpanel, hscale, hu⟩ := h
    refine ⟨hpanel, hscale, fun hl => ?_⟩
    obtain ⟨hl, hmessages⟩ := hroom hl
    -- the task will start from the new status, and then handle the event once more
    rw [hmessages, Shared.status_publish]
    exact (hu hl).publish_self event
  | waiting controller agenda alarm =>
    refine ⟨h.tracks, h.faithful, nofun, fun hl hs => ?_⟩
    obtain ⟨hl, hmessages⟩ := hroom hl
    rw [hmessages, Shared.status_publish]
    exact (h.upToDate hl hs).publish event
  | stuck panel => exact trivial
  | halted panel => exact trivial

/-- Another task may change the typing speed; the observer notes if it does. -/
theorem Follows.reshare (h : task.Follows before scale shared l) {next : Shared} {redrawn : Bool}
    (he : next.events = shared.events) (hs : next.status.reported = shared.status.reported)
    (hr : redrawn = true → l.redrawn = true ∧ next.status = shared.status) :
    task.Follows before scale next { l with redrawn } := by
  cases task with
  | created panel settings =>
    refine ⟨h.1, h.2.1, fun hl => ?_⟩
    have hu := h.2.2 hl
    rwa [UpToDate, he, hs]
  | waiting controller agenda alarm =>
    refine ⟨h.tracks, h.faithful, fun hr' => ?_, fun hl hlive => ?_⟩
    · rw [(hr hr').2]
      exact h.wpm (hr hr').1
    · rw [UpToDate, he, hs]
      exact h.upToDate hl hlive
  | stuck panel => exact trivial
  | halted panel => exact trivial

end DisplayTask

/-! ## Runs -/

/-- The typing-speed task changes the typing speed and the count of keystrokes only. -/
theorem TypingTask.shared_catchUp (count : Nat) (meter : SpeedMeter) (next : Nat)
    (shared : Shared) :
    (catchUp count meter next shared).2.events = shared.events ∧
      (catchUp count meter next shared).2.status.reported = shared.status.reported := by
  induction count generalizing meter next shared with
  | zero => exact ⟨rfl, rfl⟩
  | succ count ih =>
    rw [catchUp]
    split
    · exact ih _ _ _
    · exact ⟨rfl, rfl⟩

theorem Machine.shared_runTyping (m : Machine) :
    m.runTyping.shared.events = m.shared.events ∧
      m.runTyping.shared.status.reported = m.shared.status.reported := by
  unfold runTyping
  split
  · exact ⟨rfl, rfl⟩
  · cases m.typing with
    | created settings => exact ⟨rfl, rfl⟩
    | waiting meter next => exact TypingTask.shared_catchUp _ _ _ _
    | halted => exact ⟨rfl, rfl⟩

theorem Machine.display_runTyping (m : Machine) : m.runTyping.display = m.display := by
  unfold runTyping
  split <;> rfl

theorem Machine.display_runIndicator (m : Machine) : m.runIndicator.display = m.display := by
  unfold runIndicator
  split <;> rfl

theorem Machine.shared_runIndicator (m : Machine) :
    m.runIndicator.shared.events = m.shared.events ∧
      m.runIndicator.shared.status = m.shared.status := by
  unfold runIndicator
  split
  · exact ⟨rfl, rfl⟩
  · have hpoll : (m.indicator.poll m.shared).2.1.events = m.shared.events ∧
        (m.indicator.poll m.shared).2.1.status = m.shared.status := by
      cases hd : m.shared.darkWanted <;> simp [IndicatorTask.poll, hd]
    exact hpoll

namespace Watch

variable {before : Memory} {scale : UInt16} {w : Watch}

/-- The display of the firmware is in step with the ledger. -/
structure Follows (before : Memory) (scale : UInt16) (w : Watch) : Prop where
  display : w.machine.display.Follows before scale w.machine.shared w.ledger

theorem follows_start {bus : Bus} (hbus : bus.Steady) (settings : Settings) (clock : Nat)
    (before : Memory) : (start bus settings clock).Follows before settings.typing.scaleMax :=
  ⟨⟨Panel.faithful_bringUp hbus before, rfl, fun _ => rfl⟩⟩

/-- Every move keeps the display in step with the ledger. -/
theorem Follows.move (h : w.Follows before scale) (m : Move) : (w.move m).Follows before scale := by
  refine ⟨?_⟩
  cases m with
  | publish event => exact h.display.publish event
  | wait time => exact h.display
  | display =>
    -- the task is woken and settles, and the ledger with it
    unfold Watch.move Machine.move Machine.iterateDisplay Ledger.move
    dsimp only
    split
    · exact h.display
    · cases hw : w.machine.display.wake? w.machine.shared w.machine.clock with
      | none =>
        simp only [DisplayTask.iterate, hw]
        exact h.display
      | some awake =>
        simp only [DisplayTask.iterate, hw]
        exact DisplayTask.follows_settle (h.display.wake hw)
  | typing =>
    obtain ⟨he, hs⟩ := w.machine.shared_runTyping
    unfold Watch.move Machine.move
    dsimp only
    rw [Machine.display_runTyping]
    refine h.display.reshare he hs fun hr => ?_
    rwa [Bool.and_eq_true, beq_iff_eq] at hr
  | indicator =>
    obtain ⟨he, hs⟩ := w.machine.shared_runIndicator
    unfold Watch.move Machine.move
    dsimp only
    rw [Machine.display_runIndicator]
    exact h.display.reshare he (congrArg _ hs) fun hr => ⟨hr, hs⟩

/-- In every run the display stays in step with the ledger. -/
theorem Follows.run (h : w.Follows before scale) (moves : List Move) :
    (w.run moves).Follows before scale := by
  induction moves generalizing w with
  | nil => exact h
  | cons m rest ih => exact ih (h.move m)

/-- Nothing is left to do: no event waits, and the bars were redrawn on a panel that is on since the
shared status last changed. -/
structure Calm (w : Watch) : Prop where
  empty : w.machine.shared.events.messages = []
  isOn : w.machine.display.isOn = true
  redrawn : w.ledger.redrawn = true

instance (w : Watch) : Decidable w.Calm :=
  decidable_of_iff (w.machine.shared.events.messages = [] ∧ w.machine.display.isOn = true ∧
      w.ledger.redrawn = true)
    ⟨fun ⟨h₁, h₂, h₃⟩ => ⟨h₁, h₂, h₃⟩, fun ⟨h₁, h₂, h₃⟩ => ⟨h₁, h₂, h₃⟩⟩

/-- Whether the memory of the panel holds the picture of the shared status. -/
def CaughtUp (w : Watch) (scale : UInt16) (before : Memory) : Prop :=
  ∀ x y, OnPanel x y → (w.machine.display.panel.memory before).pixel x y =
    Painter.picture .builtin scale w.machine.shared.status x y

/-- A calm panel has caught up exactly if the status that it was told looks like the shared one, and
that is so if no event was dropped. -/
theorem Follows.caughtUp_iff (h : w.Follows before scale) (hcalm : w.Calm) :
    (w.CaughtUp scale before ↔ w.ledger.shown.LooksLike w.machine.shared.status) ∧
      (w.ledger.lossless = true → w.ledger.shown.LooksLike w.machine.shared.status) := by
  obtain ⟨⟨clock, shared, display, typing, indicator, frames, log⟩, ledger⟩ := w
  obtain ⟨hempty, hon, hr⟩ := hcalm
  cases display with
  | waiting controller agenda alarm =>
    exact Controller.Follows.pixel_memory_eq_picture_iff h.display hempty hon hr
  | _ => cases hon

/-- **When dropped events are caught up.** On a bus that never fails, in every run of moves: a calm
panel holds the picture of the shared status exactly if the status that the display was told looks
like it. It does if no event was dropped. -/
theorem caughtUp_iff_looksLike {bus : Bus} (hbus : bus.Steady) (settings : Settings) (clock : Nat)
    (before : Memory) (moves : List Move) (hcalm : ((start bus settings clock).run moves).Calm) :
    let w := (start bus settings clock).run moves
    (w.CaughtUp settings.typing.scaleMax before ↔
        w.ledger.shown.LooksLike w.machine.shared.status) ∧
      (w.ledger.lossless = true → w.ledger.shown.LooksLike w.machine.shared.status) :=
  ((follows_start hbus settings clock before).run moves).caughtUp_iff hcalm

/-! ### Two runs -/

theorem Abreast.isOn {w v : Watch} (h : w.Abreast v) :
    w.machine.display.isOn = v.machine.display.isOn := by
  have hdisplay := h.machine.display
  generalize w.machine.display = task at hdisplay ⊢
  generalize v.machine.display = other at hdisplay ⊢
  cases task with
  | waiting controller agenda alarm =>
    cases other with
    | waiting controller' agenda' alarm' => exact hdisplay.1.isOn
    | _ => cases hdisplay
  | _ => cases other <;> first | rfl | cases hdisplay

theorem Abreast.calm {w v : Watch} (h : w.Abreast v) (hv : v.Calm) : w.Calm where
  empty := h.machine.shared ▸ hv.empty
  isOn := h.isOn.trans hv.isOn
  redrawn := h.ledger ▸ hv.redrawn

/-- A bus that refuses every write. The runs of its firmware evaluate without any drawing. -/
def deadBus : Bus := { accepts := fun _ => false }

/-- A report of the layers that finds room. -/
def keptReport : List Move :=
  Machine.turn 0 1 ++ .publish (.layers ⟨4⟩) :: Machine.turn 0 1 ++ Machine.turn 250000 1

/-- A report of the layers behind as many key presses as can wait. -/
def lostReport : List Move :=
  Machine.turn 0 1 ++ List.replicate eventCapacity (.publish (.key true)) ++
    .publish (.layers ⟨4⟩) :: Machine.turn 0 eventCapacity ++ Machine.turn 250000 1

/-- A report that found room is on the panel. -/
theorem caughtUp_keptReport :
    ((start {} .standard 0).run keptReport).Calm ∧
      ((start {} .standard 0).run keptReport).CaughtUp Settings.standard.typing.scaleMax
        .zero := by
  -- the run is evaluated on the dead bus, and the other one runs abreast of it
  have hdead : ((start deadBus .standard 0).run keptReport).Calm ∧
      ((start deadBus .standard 0).run keptReport).ledger.lossless = true := by decide +kernel
  have habreast := abreast_run {} deadBus .standard 0 keptReport
  have hcalm := habreast.calm hdead.1
  obtain ⟨hiff, hlooks⟩ :=
    caughtUp_iff_looksLike Bus.steady_default .standard 0 .zero keptReport hcalm
  have hlossless := hdead.2
  rw [← habreast.ledger] at hlossless
  exact ⟨hcalm, hiff.2 (hlooks hlossless)⟩

/-- **A dropped report of the layers is not caught up**, though the bars were redrawn since. -/
theorem not_caughtUp_lostReport :
    ((start {} .standard 0).run lostReport).Calm ∧
      ¬((start {} .standard 0).run lostReport).CaughtUp Settings.standard.typing.scaleMax
        .zero := by
  have hdead : ((start deadBus .standard 0).run lostReport).Calm ∧
      ((start deadBus .standard 0).run lostReport).ledger.shown.layers.contains .symbols = false ∧
      ((start deadBus .standard 0).run lostReport).machine.shared.status.layers.contains .symbols =
        true := by decide +kernel
  obtain ⟨hcalm, hshown, hstatus⟩ := hdead
  have habreast := abreast_run {} deadBus .standard 0 lostReport
  rw [← habreast.ledger] at hshown
  rw [← habreast.machine.shared] at hstatus
  refine ⟨habreast.calm hcalm, fun hcaught => ?_⟩
  have hfollows := (follows_start Bus.steady_default .standard 0 .zero).run lostReport
  -- a panel that has caught up was told what looks like the shared status, with the same boxes
  have hlooks := (hfollows.caughtUp_iff (habreast.calm hcalm)).1.1 hcaught
  have hsymbols := hlooks.checkboxes .symbols (by decide)
  rw [hshown, hstatus] at hsymbols
  cases hsymbols

end Watch

end StatusPanel
