import StatusPanel.Proofs.Agenda.Drain
import StatusPanel.Proofs.Controller.Answers

/-!
# A controller and its agenda

A *console* is a controller with the agenda that it keeps its chores in. A console that was booted
on an empty agenda is *staffed*: until it is shut down the agenda holds the idle check and the bar
redraw, each once and in this order, and afterwards at most those that did not run since. Events and
drains leave it staffed.

## Main definitions

* `Console`: a controller, its agenda, and how often the key LEDs went dark
* `Console.boot`, `Console.handle`, `Console.drain`, `Console.settle`: what happens to a console
* `Console.crew`, `Console.Staffed`: the chores of a console

## Main results

* `Console.entries_boot`, `Console.staffed_boot`: a console after its boot
* `Console.Staffed.handle`, `Console.Staffed.drain`: it stays staffed
* `Console.Staffed.drain_of_rests`: what a drain runs
-/

namespace StatusPanel

/-- A controller with its agenda. -/
structure Console (S ι : Type) (capacity : Nat) where
  controller : Controller S ι
  agenda : Agenda capacity := .empty
  /-- How often the key LEDs were asked to go dark. -/
  darks : Nat := 0

namespace Console

variable {S ι : Type} [Surface S ι] {capacity : Nat}

/-- A new controller, and an agenda without chores. -/
def start (surface : S) (settings : Settings) (now : UInt32) : Console S ι capacity where
  controller := .start surface settings now

/-- The console after a boot. -/
def boot (k : Console S ι capacity) (loader : Asset → Option ι) (status : Status)
    (now : UInt32) : Console S ι capacity :=
  let (controller, agenda) := k.controller.boot loader k.agenda status now
  { k with controller, agenda }

/-- The console after an event. -/
def handle (k : Console S ι capacity) (event : Event) (status : Status) (now : UInt32) :
    Console S ι capacity :=
  let (controller, agenda, dark) := k.controller.handle k.agenda event status now
  { controller, agenda, darks := k.darks + dark.toNat }

/-- The drain of the chores that are due now, with at most so many runs. -/
def drain (k : Console S ι capacity) (status : Status) (now : UInt32) (limit : Nat) :
    Drained (Controller S ι) capacity :=
  k.agenda.drain (fun c chore => c.runChore chore status now) now limit k.controller

/-- The console after a drain. -/
def settle (k : Console S ι capacity) (status : Status) (now : UInt32) (limit : Nat) :
    Console S ι capacity :=
  { k with
    controller := (k.drain status now limit).state
    agenda := (k.drain status now limit).agenda }

section

variable (k : Console S ι capacity) (status : Status) (now : UInt32)

theorem agenda_handle (event : Event) :
    (k.handle event status now).agenda =
      (k.controller.handle k.agenda event status now).2.1 := rfl

theorem controller_handle (event : Event) :
    (k.handle event status now).controller =
      (k.controller.handle k.agenda event status now).1 := rfl

end

/-- No chore shuts the controller down. -/
theorem shutDown_settle (k : Console S ι capacity) (status : Status) (now : UInt32) (limit : Nat) :
    (k.settle status now limit).controller.shutDown = k.controller.shutDown :=
  Agenda.holds_of_drain
    (P := fun (c : Controller S ι) (_ : Agenda capacity) => c.shutDown = k.controller.shutDown)
    (fun h => h) (fun h _ _ => (Controller.shutDown_runChore ..).trans h) limit rfl

/-! ## The chores of a console -/

/-- The chores that a boot registers on an empty agenda. -/
def crew : List (Token × Chore) := [(0, .idleCheck), (1, .barRedraw)]

/-- The terms of a controller that was booted on an empty agenda. -/
def crewTerms (settings : Settings) : Controller.Terms where
  settings := Controller.withIntervals settings
  idleToken := some 0
  barToken := some 1
  timeout := settings.timing.sleepTimeout
  checkInterval := max settings.timing.checkInterval 1

/-- The delay between the runs of a chore. -/
def interval (settings : Settings) (chore : Chore) : UInt32 := (crewTerms settings).interval chore

/-- A controller and an agenda with no chores but those of a boot, and with both of them until a
shutdown. The idle check is never wanted soon. -/
structure Staffed (settings : Settings) (c : Controller S ι) (a : Agenda capacity) : Prop where
  terms : c.terms = crewTerms settings
  sublist : a.labels.Sublist crew
  full : c.shutDown = false → a.labels = crew
  calm : ∀ e ∈ a.entries, e.chore = .idleCheck → e.soon = false

/-! ### The boot -/

theorem max_one_of_pos {a : UInt32} (h : 0 < a) : max a 1 = a := by
  show (if a ≤ 1 then 1 else a) = a
  grind

theorem pos_max_one (a : UInt32) : 0 < max a 1 := by
  show 0 < if a ≤ 1 then 1 else a
  grind

theorem pos_interval (settings : Settings) (chore : Chore) : 0 < interval settings chore := by
  cases chore with
  | idleCheck => exact pos_max_one _
  | barRedraw => exact pos_max_one _

section

variable (hcapacity : 2 ≤ capacity)

include hcapacity

/-- Two chores registered on an empty agenda. -/
theorem register_two (idle bar : UInt32) :
    let first := (.empty : Agenda capacity).register .idleCheck idle
    let second := first.1.register .barRedraw bar
    first.2 = some 0 ∧ second.2 = some 1 ∧
      second.1.entries =
        [⟨0, .idleCheck, false, .waiting idle⟩, ⟨1, .barRedraw, false, .waiting bar⟩] := by
  intro first second
  have hempty : (.empty : Agenda capacity).size < capacity := by
    show 0 < capacity
    omega
  obtain ⟨htoken, hnext, hentries⟩ := Agenda.register_of_size_lt hempty .idleCheck idle
  have hone : first.1.size < capacity := by
    rw [Agenda.size, hentries]
    show 1 < capacity
    omega
  obtain ⟨htoken', -, hentries'⟩ := Agenda.register_of_size_lt hone .barRedraw bar
  refine ⟨htoken, ?_, ?_⟩
  · rw [htoken', hnext]
    rfl
  · rw [hentries', hnext, hentries]
    rfl

variable (surface : S) (settings : Settings) (born : UInt32) (loader : Asset → Option ι)
  (status : Status) (now : UInt32)

/-- After a boot both chores wait for the first look at the clock. -/
theorem entries_boot :
    ((start surface settings born : Console S ι capacity).boot loader status now).agenda.entries =
      [⟨0, .idleCheck, false, .waiting (interval settings .idleCheck)⟩,
        ⟨1, .barRedraw, false, .waiting (interval settings .barRedraw)⟩] := by
  have hboot := (Controller.start surface settings born : Controller S ι).snd_boot loader
    (.empty : Agenda capacity) status now
  exact (congrArg Agenda.entries hboot).trans (register_two hcapacity _ _).2.2

theorem staffed_boot :
    let k := (start surface settings born : Console S ι capacity).boot loader status now
    Staffed settings k.controller k.agenda := by
  intro k
  have hentries : k.agenda.entries = _ :=
    entries_boot hcapacity surface settings born loader status now
  have hlabels : k.agenda.labels = crew := by
    rw [Agenda.labels, hentries]
    rfl
  constructor
  case terms =>
    -- the intervals are not zero, so the power state keeps its interval
    let c : Controller S ι := .start surface settings born
    have hidle : (Controller.choreTokens c.settings (.empty : Agenda capacity)).1 = some 0 :=
      (register_two hcapacity _ c.settings.timing.barInterval).1
    have hbar : (Controller.choreTokens c.settings (.empty : Agenda capacity)).2 = some 1 :=
      (register_two hcapacity _ _).2.1
    have hinterval : c.power.checkInterval = max settings.timing.checkInterval 1 :=
      max_one_of_pos (pos_max_one _)
    have hboot : k.controller.terms = _ := c.terms_boot loader .empty status now
    rw [hboot, hidle, hbar, Controller.terms, hinterval]
    rfl
  case sublist => rw [hlabels]
  case full => exact fun _ => hlabels
  case calm =>
    rw [hentries]
    intro e he hchore
    rcases List.mem_cons.1 he with rfl | he
    · rfl
    · rw [List.mem_singleton.1 he] at hchore
      cases hchore

end

/-! ### What happens to a staffed console -/

namespace Staffed

variable {settings : Settings} {c : Controller S ι} {a : Agenda capacity}

omit [Surface S ι] in
theorem nodup_tokens (h : Staffed settings c a) : (a.entries.map Entry.token).Nodup := by
  have hsublist := h.sublist.map Prod.fst
  rw [Agenda.labels, List.map_map] at hsublist
  exact List.Nodup.sublist hsublist (by decide)

omit [Surface S ι] in
/-- The chore of an entry is that of its token in the crew. -/
theorem mem_crew (h : Staffed settings c a) {e : Entry} (he : e ∈ a.entries) : e.label ∈ crew :=
  h.sublist.subset (List.mem_map_of_mem he)

omit [Surface S ι] in
theorem interval_eq (h : Staffed settings c a) (chore : Chore) :
    c.terms.interval chore = interval settings chore := by
  rw [h.terms]
  rfl

omit [Surface S ι] in
theorem anchor (h : Staffed settings c a) (now : UInt32) :
    Staffed settings c (a.anchor now) := by
  refine ⟨h.terms, ?_, ?_, ?_⟩
  · rw [Agenda.labels_anchor]
    exact h.sublist
  · rw [Agenda.labels_anchor]
    exact h.full
  · intro e he hchore
    obtain ⟨e₀, he₀, rfl⟩ := List.mem_map.1 he
    exact h.calm e₀ he₀ hchore

omit [Surface S ι] in
/-- Only the bars can be wanted soon. -/
theorem wantSoon (h : Staffed settings c a) : Staffed settings c (a.wantSoon 1) := by
  refine ⟨h.terms, ?_, ?_, ?_⟩
  · rw [Agenda.labels_wantSoon]
    exact h.sublist
  · rw [Agenda.labels_wantSoon]
    exact h.full
  · intro e he hchore
    rcases mem_changeFirst he with he | ⟨e₀, he₀, htoken, rfl⟩
    · exact h.calm e he hchore
    · -- the chore of the token is not the idle check
      have hlabel : e₀.label = (1, .idleCheck) := Prod.ext (beq_iff_eq.1 htoken) hchore
      exact absurd (hlabel ▸ h.mem_crew he₀) (by decide)

theorem runChore (h : Staffed settings c a) (token : Token) (chore : Chore) (status : Status)
    (now : UInt32) :
    Staffed settings (c.runChore chore status now).1
      (a.complete token (c.runChore chore status now).2 now) := by
  refine ⟨(c.terms_runChore chore status now).trans h.terms, ?_, ?_, ?_⟩
  · exact (a.labels_complete_sublist token _ now).trans h.sublist
  · intro hlive
    rw [Controller.shutDown_runChore] at hlive
    rw [Controller.snd_runChore, Controller.rearm, if_neg (Bool.eq_false_iff.1 hlive),
      Agenda.labels_complete_after]
    exact h.full hlive
  · intro e he hchore
    unfold Agenda.complete at he
    split at he
    · rcases mem_changeFirst he with he | ⟨e₀, -, -, rfl⟩
      · exact h.calm e he hchore
      · rfl
    · exact h.calm e (List.mem_of_mem_eraseP he) hchore

/-- An event leaves a console staffed. -/
theorem handle (h : Staffed settings c a) (event : Event) (status : Status) (now : UInt32) :
    Staffed settings (c.handle a event status now).1 (c.handle a event status now).2.1 := by
  have hterms := (c.terms_handle a event status now).trans h.terms
  have hbar : c.barToken = some 1 := congrArg Controller.Terms.barToken h.terms
  -- the agenda stays as it is, or the bars are wanted soon
  have hagenda : Staffed settings c (c.handle a event status now).2.1 := by
    rw [Controller.snd_handle, hbar]
    split
    · exact h
    · cases event with
      | key pressed => exact h.wantSoon
      | _ => exact h
  refine ⟨hterms, hagenda.sublist, fun hlive => hagenda.full ?_, hagenda.calm⟩
  rw [Controller.shutDown_handle, Bool.or_eq_false_iff] at hlive
  exact hlive.1

/-- A drain leaves a console staffed. -/
theorem drain (h : Staffed settings c a) (status : Status) (now : UInt32) (limit : Nat) :
    let drained := a.drain (fun c chore => c.runChore chore status now) now limit c
    Staffed settings drained.state drained.agenda :=
  Agenda.holds_of_drain (P := Staffed settings) (fun h => h.anchor now)
    (fun h token chore => h.runChore token chore status now) limit h

/-- Runs re-arm their chores alike. -/
theorem rearm_of_mem_runs (c : Controller S ι) (a : Agenda capacity) (status : Status)
    (now : UInt32) (limit : Nat) :
    ∀ run ∈ (a.drain (fun c chore => c.runChore chore status now) now limit c).runs,
      run.rearm = c.rearm run.chore := by
  refine Agenda.forall_mem_runs_drain (P := fun d : Controller S ι => d.rearm = c.rearm)
    (Q := fun chore rearm => rearm = c.rearm chore) (fun {d} hd chore => ⟨?_, ?_⟩) limit rfl a
  · rw [Controller.rearm_runChore, hd]
  · rw [Controller.snd_runChore, hd]

omit [Surface S ι] in
/-- A chore rests after its run if its delay is no longer than half a turn of the clock, or the
controller was shut down. -/
theorem rests_iff (h : Staffed settings c a) (chore : Chore) :
    (c.rearm chore).Rests ↔ c.shutDown = true ∨ interval settings chore ≤ 0x80000000 := by
  rw [Controller.rearm, h.interval_eq]
  cases c.shutDown with
  | true => exact iff_of_true trivial (Or.inl rfl)
  | false =>
    constructor
    · rintro ⟨-, hle⟩
      exact Or.inr hle
    · rintro (hshut | hle)
      · cases hshut
      · exact ⟨pos_interval settings chore, hle⟩

omit [Surface S ι] in
/-- Chores with delays no longer than half a turn of the clock rest after their runs. -/
theorem rests (h : Staffed settings c a) (hbrief : ∀ chore, interval settings chore ≤ 0x80000000)
    (chore : Chore) : (c.rearm chore).Rests :=
  (h.rests_iff chore).2 (Or.inr (hbrief chore))

/-- If both chores rest after their runs, a drain comes to its end. It runs the chores that are
ready, each once, and re-arms them. -/
theorem drain_of_rests (h : Staffed settings c a) (hrests : ∀ chore, (c.rearm chore).Rests)
    (status : Status) (now : UInt32) {limit : Nat} (hlimit : a.size ≤ limit) :
    let drained := a.drain (fun c chore => c.runChore chore status now) now limit c
    drained.finished = true ∧
      (drained.runs.map ChoreRun.label).Perm ((a.readyEntries now).map Entry.label) ∧
      (drained.runs.map ChoreRun.chore).Nodup ∧
      drained.agenda.entries = (a.anchor now).entries.filterMap fun e =>
        if e.ready now then e.settle (c.rearm e.chore) now else some e := by
  intro drained
  have hact : ∀ {d : Controller S ι}, d.rearm = c.rearm → ∀ chore,
      (d.runChore chore status now).1.rearm = c.rearm ∧
        (d.runChore chore status now).2 = c.rearm chore := by
    intro d hd chore
    rw [Controller.rearm_runChore, Controller.snd_runChore, hd]
    exact ⟨rfl, rfl⟩
  have hready : (a.readyEntries now).length ≤ limit := by
    have hfilter := List.length_filter_le (·.ready now) (a.anchor now).entries
    have hsize := a.size_anchor now
    unfold Agenda.readyEntries
    unfold Agenda.size at *
    omega
  obtain ⟨hfinished, hperm, -⟩ := Agenda.drain_of_rests
    (P := fun d : Controller S ι => d.rearm = c.rearm)
    (fun hd chore => ⟨(hact hd chore).1, (hact hd chore).2 ▸ hrests chore⟩) rfl h.nodup_tokens
    hready
  have hentries := Agenda.entries_drain_of_rearm
    (P := fun d : Controller S ι => d.rearm = c.rearm) hact hrests rfl h.nodup_tokens hready
  refine ⟨hfinished, hperm, ?_, hentries⟩
  -- the ready entries are some of the crew, whose chores differ
  have hsublist : ((a.readyEntries now).map Entry.label).Sublist crew := by
    have hfilter : ((a.readyEntries now).map Entry.label).Sublist (a.anchor now).labels :=
      List.filter_sublist.map _
    rw [Agenda.labels_anchor] at hfilter
    exact hfilter.trans h.sublist
  have hchores : (drained.runs.map ChoreRun.chore).Perm
      (((a.readyEntries now).map Entry.label).map Prod.snd) := by
    have hmap := hperm.map Prod.snd
    rwa [List.map_map] at hmap
  exact hchores.nodup_iff.2 (List.Nodup.sublist (hsublist.map Prod.snd) (by decide))

end Staffed

end Console

end StatusPanel
