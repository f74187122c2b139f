import StatusPanel.Proofs.Agenda.Tokens
import StatusPanel.Proofs.Controller.PowerCommands
import StatusPanel.Proofs.Controller.Rollover

/-!
# After a shutdown

A controller is asked by events, by its chores, and directly. The first shutdown that reaches it, as
an event or directly, sends one power command and asks once for dark key LEDs. From then on the
controller does nothing, so its chores are cancelled one by one, each when it is run next.

A chore is known by its token. In a run that boots once at most no two chores have the same token,
so a chore that was cancelled never runs again.

## Main definitions

* `Agenda.carriers`: how many entries carry a token
* `Agenda.Counted`: an agenda that holds all its registrations
* `Console.Act`, `Console.act`, `Console.run`: whatever can happen to a console, and the console
  after it
* `Console.Enrolled`, `Console.Bare`, `Console.Begun`: the tokens of a console, a console that was
  not booted, and one in a run without a shutdown

## Main results

* `Console.shutDown_act`, `Console.darks_act`: what shuts a console down, and when the key LEDs are
  asked to go dark
* `Console.act_shutdown`: what the shutdown does
* `Console.act_of_isCall`, `Console.carriers_act`, `Console.run_of_shutDown`: what happens after it
* `Console.carriers_run_le_one`, `Console.carriers_run_eq_zero`: the chores of a run with one boot
* `Console.begun_run`: what holds until the shutdown
-/

namespace StatusPanel

/-! ## The entries of a token -/

namespace Agenda

variable {capacity : Nat}

/-- The number of entries that carry a token. -/
def carriers (a : Agenda capacity) (token : Token) : Nat := (a.labels.map Prod.fst).count token

theorem tokens_eq (a : Agenda capacity) :
    a.labels.map Prod.fst = a.entries.map Entry.token := by
  rw [labels, List.map_map]
  rfl

theorem length_labels (a : Agenda capacity) : a.labels.length = a.size := List.length_map _

/-- Of the entries with a token the first one is cancelled. -/
theorem carriers_cancel (a : Agenda capacity) (token other : Token) (now : UInt32) :
    (a.complete token .cancel now).carriers other =
      a.carriers other - if token == other then 1 else 0 := by
  -- seen through the tokens, the first entry that carries one is the first occurrence of it
  have herase : (a.complete token .cancel now).entries.map Entry.token =
      (a.entries.map Entry.token).erase token := by
    rw [List.erase_eq_eraseP', List.eraseP_map]
    rfl
  rw [carriers, carriers, tokens_eq, tokens_eq, herase, List.count_erase]

/-- A token that no entry carries is not polled. -/
theorem poll_ne_of_carriers {a : Agenda capacity} {token : Token} (h : a.carriers token = 0)
    (now : UInt32) (chore : Chore) : (a.poll now).2 ≠ some (token, chore) := by
  intro hpoll
  obtain ⟨e, he, rfl, -⟩ := ready_of_poll hpoll
  have hmem : e.label ∈ (a.anchor now).labels := List.mem_map_of_mem (List.mem_filter.1 he).1
  rw [labels_anchor] at hmem
  exact List.count_eq_zero.1 h (List.mem_map_of_mem hmem)

/-- A registration adds its chore under the token that it answers, or finds the table full. -/
theorem labels_register_cases (a : Agenda capacity) (chore : Chore) (delay : UInt32) :
    ((a.register chore delay).2 = some a.nextToken ∧
      (a.register chore delay).1.labels = a.labels ++ [(a.nextToken, chore)]) ∨
    ((a.register chore delay).2 = none ∧ (a.register chore delay).1 = a) := by
  obtain ⟨b, hb, hentries, -⟩ | hfull := a.register_cases chore delay
  · refine Or.inl ?_
    rw [hb, labels, hentries, List.map_append]
    exact ⟨rfl, rfl⟩
  · rw [hfull]
    exact Or.inr ⟨rfl, rfl⟩

/-- An agenda from which no chore was removed: it holds all its registrations, in order. -/
def Counted (a : Agenda capacity) : Prop := Roll.Sound ⟨a, List.range a.size, a.size⟩

namespace Counted

variable {a b : Agenda capacity}

theorem of_labels_eq (h : a.Counted) (hlabels : b.labels = a.labels)
    (hnext : b.nextToken = a.nextToken) : b.Counted := by
  have hsize : b.size = a.size := by
    have hlength := congrArg List.length hlabels
    rwa [labels, labels, List.length_map, List.length_map] at hlength
  unfold Counted
  rw [hsize]
  exact h.of_tokens_eq (by rw [← tokens_eq, ← tokens_eq, hlabels]) hnext

theorem register (h : a.Counted) (chore : Chore) (delay : UInt32) :
    (a.register chore delay).1.Counted := by
  have hsound := Roll.Sound.register h chore delay
  unfold Roll.register at hsound
  obtain ⟨b, hb, hentries, -⟩ | hfull := a.register_cases chore delay
  · have hsize : b.size = a.size + 1 := by
      rw [size, hentries, List.length_append, List.length_singleton, size]
    rw [hb] at hsound ⊢
    unfold Counted
    rw [hsize, List.range_succ]
    exact hsound
  · rw [hfull]
    exact h

/-- The tokens of no more than 256 chores differ. -/
theorem carriers_le_one (h : a.Counted) (hsize : a.size ≤ 256) (token : Token) :
    a.carriers token ≤ 1 := by
  have hnodup := h.nodup_of_recent fun n _ => by
    show a.size ≤ n + 256
    omega
  rw [carriers, tokens_eq]
  exact List.nodup_iff_count_le_one.1 hnodup token

end Counted

theorem length_labels_register_le (a : Agenda capacity) (chore : Chore) (delay : UInt32) :
    (a.register chore delay).1.labels.length ≤ a.labels.length + 1 := by
  obtain ⟨-, hlabels⟩ | ⟨-, hsame⟩ := a.labels_register_cases chore delay
  · exact Nat.le_of_eq (by rw [hlabels, List.length_append, List.length_singleton])
  · rw [hsame]
    exact Nat.le_succ _

theorem subset_labels_register (a : Agenda capacity) (chore : Chore) (delay : UInt32) :
    a.labels ⊆ (a.register chore delay).1.labels := by
  obtain ⟨-, hlabels⟩ | ⟨-, hsame⟩ := a.labels_register_cases chore delay
  · rw [hlabels]
    exact List.subset_append_left ..
  · rw [hsame]
    exact List.Subset.refl _

/-- A chore is registered under the token that the registration answers. -/
theorem mem_labels_register {a : Agenda capacity} {chore : Chore} {delay : UInt32} {token : Token}
    (h : (a.register chore delay).2 = some token) :
    (token, chore) ∈ (a.register chore delay).1.labels := by
  obtain ⟨htoken, hlabels⟩ | ⟨hnone, -⟩ := a.labels_register_cases chore delay
  · rw [htoken] at h
    obtain rfl := Option.some.inj h
    rw [hlabels]
    exact List.mem_append_right _ (List.mem_singleton_self _)
  · rw [hnone] at h
    cases h

end Agenda

/-- A suspend leaves all but the power alone. -/
theorem Power.fst_suspend (p : Power) : p.suspend.1 = { p with powered := false } := by
  obtain ⟨powered, lastActivity, timeout, checkInterval⟩ := p
  cases powered <;> rfl

/-- The token of a chore, once it is registered. -/
def Controller.Terms.tokenOf (terms : Controller.Terms) : Chore → Option Token
  | .idleCheck => terms.idleToken
  | .barRedraw => terms.barToken

namespace Console

/-! ## Whatever happens to a console -/

/-- What can happen to a console. -/
inductive Act (ι : Type)
  /-- Something that the agenda has a part in. -/
  | step (step : Step ι)
  /-- The controller is asked directly. -/
  | activity (now : UInt32)
  | idleCheck (now : UInt32)
  | barRedraw (status : Status)
  | suspend
  | wake
  | shutdown

namespace Act

variable {ι : Type}

/-- Whether an act is a shutdown. -/
def isShutdown : Act ι → Bool
  | .step (.event .shutdown _ _) | .shutdown => true
  | _ => false

/-- Whether an act is a boot. -/
def isBoot : Act ι → Bool
  | .step (.boot ..) => true
  | _ => false

theorem eq_boot_of_isBoot {act : Act ι} (h : act.isBoot = true) :
    ∃ loader status now, act = .step (.boot loader status now) := by
  cases act with
  | step step =>
    cases step with
    | boot loader status now => exact ⟨loader, status, now, rfl⟩
    | _ => cases h
  | _ => cases h

/-- Whether an act asks the controller, other than for a boot, and leaves the agenda to it. -/
def isCall : Act ι → Bool
  | .step (.event ..) => true
  | .step _ => false
  | _ => true

/-- Whether the chore of a token runs and is completed. -/
def runs (token : Token) : Act ι → Bool
  | .step (.run ran ..) => ran == token
  | _ => false

end Act

variable {S ι : Type} [Surface S ι] {capacity : Nat}

/-- The console after an act. -/
def act (k : Console S ι capacity) : Act ι → Console S ι capacity
  | .step step => k.step step
  | .activity now => { k with controller := k.controller.activity now }
  | .idleCheck now => { k with controller := (k.controller.idleCheck now).1 }
  | .barRedraw status => { k with controller := (k.controller.barRedraw status).1 }
  | .suspend => { k with controller := k.controller.suspend }
  | .wake => { k with controller := k.controller.wake }
  | .shutdown =>
    let (controller, dark) := k.controller.shutdown
    { k with controller, darks := k.darks + dark.toNat }

/-- The console after some acts. -/
def run (k : Console S ι capacity) (acts : List (Act ι)) : Console S ι capacity :=
  acts.foldl act k

/-- What an act asks of the controller, with an agenda. -/
def Act.request {ι : Type} {capacity : Nat} (agenda : Agenda capacity) :
    Act ι → Option (Controller.Request ι capacity)
  | .step (.boot loader status now) => some (.boot loader agenda status now)
  | .step (.event event status now) => some (.input (.event agenda event status now))
  | .step (.run _ chore status now _) => some (.input (chore.input status now))
  | .step (.poll _) | .step (.nextDeadline _) => none
  | .activity now => some (.input (.activity now))
  | .idleCheck now => some (.input (.idleCheck now))
  | .barRedraw status => some (.input (.barRedraw status))
  | .suspend => some (.input .suspend)
  | .wake => some (.input .wake)
  | .shutdown => some (.input .shutdown)

end Console

namespace Controller

variable {S ι : Type} [Surface S ι] {capacity : Nat}

/-- A controller is shut down by a shutdown only, and stays so. -/
theorem shutDown_serve (c : Controller S ι) (request : Request ι capacity) :
    (c.serve request).shutDown = (c.shutDown || request.shutsDown) := by
  cases request with
  | boot loader agenda status now =>
    exact (c.shutDown_boot loader agenda status now).trans (Bool.or_false _).symm
  | input input =>
    rw [serve]
    cases h : c.shutDown with
    | true => rw [take_of_shutDown h, h, Bool.true_or]
    | false =>
      rw [take_of_live h (.boot .initial), shutDown_execute]
      cases input with
      | event agenda event status now => cases event <;> rfl
      | _ => rfl

/-- A shutdown is the same whether it is an event or not. -/
theorem serve_of_shutsDown (c : Controller S ι) {request : Request ι capacity}
    (h : request.shutsDown = true) : c.serve request = c.shutdown.1 := by
  cases request with
  | boot loader agenda status now => cases h
  | input input =>
    cases input with
    | event agenda event status now =>
      cases event with
      | shutdown => exact c.fst_handle_shutdown agenda status now
      | _ => cases h
    | shutdown => rfl
    | _ => cases h

/-- The shutdown of a controller that was not shut down before: one power command, whatever the
power state and whatever the answer. -/
theorem fst_shutdown_of_live {c : Controller (Traced S ι) ι} (h : c.shutDown = false) :
    c.shutdown.1.surface.trace =
        c.surface.trace ++ [(.power false, (Surface.power c.surface.surface false).2)] ∧
      c.shutdown.1.power = { c.power with powered := false } := by
  rw [shutdown, h]
  exact ⟨rfl, c.power.fst_suspend⟩

/-- An event asks for dark key LEDs if it is the first shutdown. -/
theorem dark_handle (c : Controller S ι) (agenda : Agenda capacity) (event : Event)
    (status : Status) (now : UInt32) :
    (c.handle agenda event status now).2.2 = (!c.shutDown && event == .shutdown) := by
  rw [snd_handle]
  cases c.shutDown <;> cases event <;> rfl

@[simp] theorem snd_shutdown (c : Controller S ι) : c.shutdown.2 = !c.shutDown := by
  unfold shutdown
  cases c.shutDown <;> rfl

end Controller

namespace Console

variable {S ι : Type} [Surface S ι] {capacity : Nat} {k : Console S ι capacity} {act : Act ι}

/-- The controller after an act is that after its request. -/
theorem controller_act (k : Console S ι capacity) (act : Act ι) :
    (k.act act).controller = (act.request k.agenda).elim k.controller k.controller.serve := by
  cases act with
  | step step =>
    cases step with
    | run token chore status now ended => exact (k.controller.take_input chore status now).symm
    | _ => rfl
  | _ => rfl

/-- An act without a request is a look at the clock. -/
theorem Act.request_cases (agenda : Agenda capacity) (act : Act ι) :
    act.request agenda = none ∧ act.isShutdown = false ∨
      ∃ request, act.request agenda = some request ∧ request.shutsDown = act.isShutdown ∧
        (act.isBoot = false → ∃ input, request = .input input) := by
  cases act with
  | step step =>
    cases step with
    | boot loader status now => exact Or.inr ⟨_, rfl, rfl, nofun⟩
    | event event status now =>
      refine Or.inr ⟨_, rfl, ?_, fun _ => ⟨_, rfl⟩⟩
      cases event <;> rfl
    | run token chore status now ended =>
      refine Or.inr ⟨_, rfl, ?_, fun _ => ⟨_, rfl⟩⟩
      cases chore <;> rfl
    | poll now => exact Or.inl ⟨rfl, rfl⟩
    | nextDeadline now => exact Or.inl ⟨rfl, rfl⟩
  | _ => exact Or.inr ⟨_, rfl, rfl, fun _ => ⟨_, rfl⟩⟩

/-! ### The shutdown -/

/-- A console is shut down by a shutdown only, and stays so. -/
theorem shutDown_act (k : Console S ι capacity) (act : Act ι) :
    (k.act act).controller.shutDown = (k.controller.shutDown || act.isShutdown) := by
  rw [controller_act]
  rcases act.request_cases k.agenda with ⟨hnone, hdown⟩ | ⟨request, hrequest, hdown, -⟩
  · rw [hnone, hdown, Bool.or_false]
    rfl
  · rw [hrequest, ← hdown]
    exact k.controller.shutDown_serve request

/-- The key LEDs are asked to go dark by the first shutdown, and by no other act. -/
theorem darks_act (k : Console S ι capacity) (act : Act ι) :
    (k.act act).darks = k.darks + (!k.controller.shutDown && act.isShutdown).toNat := by
  have hother : k.darks = k.darks + (!k.controller.shutDown && false).toNat := by
    rw [Bool.and_false]
    rfl
  cases act with
  | step step =>
    cases step with
    | event event status now =>
      show k.darks + (k.controller.handle k.agenda event status now).2.2.toNat = _
      rw [Controller.dark_handle]
      cases event <;> rfl
    | _ => exact hother
  | shutdown =>
    show k.darks + k.controller.shutdown.2.toNat = _
    rw [Controller.snd_shutdown, Act.isShutdown, Bool.and_true]
  | _ => exact hother

/-- The agenda has no part in a shutdown. -/
theorem agenda_act_of_isShutdown (k : Console S ι capacity) (h : act.isShutdown = true) :
    (k.act act).agenda = k.agenda := by
  cases act with
  | step step =>
    cases step with
    | event event status now =>
      cases event with
      | shutdown =>
        show (k.controller.handle k.agenda .shutdown status now).2.1 = k.agenda
        rw [Controller.snd_handle]
        split <;> rfl
      | _ => cases h
    | _ => cases h
  | shutdown => rfl
  | _ => cases h

/-- **The shutdown** of a console sends one power command and asks once for dark key LEDs. -/
theorem act_shutdown {k : Console (Traced S ι) ι capacity} (hlive : k.controller.shutDown = false)
    (h : act.isShutdown = true) :
    (k.act act).controller.surface.trace = k.controller.surface.trace ++
        [(.power false, (Surface.power k.controller.surface.surface false).2)] ∧
      (k.act act).controller.power = { k.controller.power with powered := false } ∧
      (k.act act).controller.shutDown = true ∧
      (k.act act).darks = k.darks + 1 ∧ (k.act act).agenda = k.agenda := by
  have hcontroller : (k.act act).controller = k.controller.shutdown.1 := by
    rw [controller_act]
    rcases act.request_cases k.agenda with ⟨-, hdown⟩ | ⟨request, hrequest, hdown, -⟩
    · rw [h] at hdown
      cases hdown
    · rw [hrequest]
      exact k.controller.serve_of_shutsDown (hdown.trans h)
  obtain ⟨htrace, hpower⟩ := Controller.fst_shutdown_of_live hlive
  have hdarks := k.darks_act act
  rw [hlive, h] at hdarks
  rw [hcontroller]
  exact ⟨htrace, hpower, Controller.shutDown_shutdown _, hdarks, k.agenda_act_of_isShutdown h⟩

/-! ### After the shutdown -/

/-- The controller is left as it is, and the key LEDs are not asked for again. -/
theorem controller_act_of_shutDown (h : k.controller.shutDown = true)
    (hboot : act.isBoot = false) :
    (k.act act).controller = k.controller ∧ (k.act act).darks = k.darks := by
  constructor
  · rw [controller_act]
    rcases act.request_cases k.agenda with ⟨hnone, -⟩ | ⟨request, hrequest, -, hinput⟩
    · rw [hnone]
      rfl
    · obtain ⟨input, rfl⟩ := hinput hboot
      rw [hrequest]
      exact Controller.take_of_shutDown h input
  · rw [darks_act, h]
    rfl

/-- **Calls after a shutdown** do nothing at all. -/
theorem act_of_isCall (h : k.controller.shutDown = true) (hcall : act.isCall = true) :
    k.act act = k := by
  have hboot : act.isBoot = false := by
    cases act with
    | step step => cases step <;> first | rfl | cases hcall
    | _ => rfl
  have hagenda : (k.act act).agenda = k.agenda := by
    cases act with
    | step step =>
      cases step with
      | event event status now =>
        exact congrArg (·.2.1) (Controller.handle_of_shutDown h k.agenda event status now)
      | _ => cases hcall
    | _ => rfl
  obtain ⟨hcontroller, hdarks⟩ := controller_act_of_shutDown h hboot
  calc
    k.act act = ⟨(k.act act).controller, (k.act act).agenda, (k.act act).darks⟩ := rfl
    _ = k := by rw [hcontroller, hagenda, hdarks]

/-- A chore is cancelled when it is run, and none is removed otherwise. -/
theorem carriers_act (h : k.controller.shutDown = true) (hboot : act.isBoot = false)
    (token : Token) :
    (k.act act).agenda.carriers token = k.agenda.carriers token - (act.runs token).toNat := by
  have hanchor (now : UInt32) :
      (k.agenda.anchor now).carriers token = k.agenda.carriers token := by
    rw [Agenda.carriers, Agenda.labels_anchor, Agenda.carriers]
  cases act with
  | step step =>
    cases step with
    | boot loader status now => cases hboot
    | event event status now => rw [act_of_isCall h rfl]; rfl
    | run ran chore status now ended =>
      have hagenda : (k.act (.step (.run ran chore status now ended))).agenda =
          k.agenda.complete ran .cancel ended := by
        show k.agenda.complete ran (k.controller.runChore chore status now).2 ended = _
        rw [Controller.runChore_of_shutDown h]
      rw [hagenda, Agenda.carriers_cancel, Act.runs]
      cases ran == token <;> rfl
    | poll now => exact hanchor now
    | nextDeadline now => exact hanchor now
  | _ => rfl

/-- **What happens after a shutdown** leaves the controller and the key LEDs alone, and cancels each
chore that runs. -/
theorem run_of_shutDown (h : k.controller.shutDown = true) {later : List (Act ι)}
    (hboot : ∀ act ∈ later, act.isBoot = false) :
    (k.run later).controller = k.controller ∧ (k.run later).darks = k.darks ∧
      ∀ token, (k.run later).agenda.carriers token =
        k.agenda.carriers token - later.countP (·.runs token) := by
  -- Induction on the acts: the console after the first one was shut down as well.
  induction later generalizing k with
  | nil => exact ⟨rfl, rfl, fun token => rfl⟩
  | cons act rest ih =>
    have hfirst := hboot act (List.mem_cons_self ..)
    obtain ⟨hcontroller, hdarks⟩ := controller_act_of_shutDown h hfirst
    have hdown : (k.act act).controller.shutDown = true := by rw [hcontroller, h]
    obtain ⟨ihcontroller, ihdarks, ihcarriers⟩ :=
      ih hdown fun other hother => hboot other (List.mem_cons_of_mem _ hother)
    refine ⟨ihcontroller.trans hcontroller, ihdarks.trans hdarks, fun token => ?_⟩
    show ((k.act act).run rest).agenda.carriers token = _
    rw [ihcarriers, carriers_act h hfirst, List.countP_cons, Nat.sub_sub, Nat.add_comm]
    cases act.runs token <;> rfl

/-- A console stays shut down, and its key LEDs are not asked for again, even if it is booted. -/
theorem run_shutDown (h : k.controller.shutDown = true) (later : List (Act ι)) :
    (k.run later).controller.shutDown = true ∧ (k.run later).darks = k.darks := by
  induction later generalizing k with
  | nil => exact ⟨h, rfl⟩
  | cons act rest ih =>
    have hdown : (k.act act).controller.shutDown = true := by rw [shutDown_act, h, Bool.true_or]
    have hdarks : (k.act act).darks = k.darks := by
      rw [darks_act, h]
      rfl
    obtain ⟨ihdown, ihdarks⟩ := ih hdown
    exact ⟨ihdown, ihdarks.trans hdarks⟩

/-! ### Chores and tokens -/

/-- Acts other than a boot leave the chores and the tokens alone, as long as the console is not shut
down. -/
theorem labels_act (h : k.controller.shutDown = false) (hboot : act.isBoot = false) :
    (k.act act).agenda.labels = k.agenda.labels ∧
      (k.act act).agenda.nextToken = k.agenda.nextToken := by
  have hanchor (now : UInt32) : (k.agenda.anchor now).labels = k.agenda.labels ∧
      (k.agenda.anchor now).nextToken = k.agenda.nextToken := ⟨k.agenda.labels_anchor now, rfl⟩
  cases act with
  | step step =>
    cases step with
    | boot loader status now => cases hboot
    | event event status now =>
      rw [act, step, agenda_handle, Controller.snd_handle, h]
      cases event with
      | key pressed =>
        -- the bars are wanted soon, if they are registered
        cases k.controller.barToken with
        | none => exact ⟨rfl, rfl⟩
        | some token => exact ⟨k.agenda.labels_wantSoon token, rfl⟩
      | _ => exact ⟨rfl, rfl⟩
    | run token chore status now ended =>
      have hagenda : (k.act (.step (.run token chore status now ended))).agenda =
          k.agenda.complete token (k.controller.runChore chore status now).2 ended := rfl
      rw [hagenda, Controller.snd_runChore, Controller.rearm, h]
      exact ⟨k.agenda.labels_complete_after token _ ended, rfl⟩
    | poll now => exact hanchor now
    | nextDeadline now => exact hanchor now
  | _ => exact ⟨rfl, rfl⟩

/-- No act but a boot adds a chore or gives a token away. -/
theorem labels_act_sublist (k : Console S ι capacity) (hboot : act.isBoot = false) :
    (k.act act).agenda.labels.Sublist k.agenda.labels ∧
      (k.act act).agenda.nextToken = k.agenda.nextToken := by
  cases hdown : k.controller.shutDown with
  | false =>
    obtain ⟨hlabels, hnext⟩ := labels_act hdown hboot
    exact ⟨hlabels ▸ List.Sublist.refl _, hnext⟩
  | true =>
    have hanchor (now : UInt32) : (k.agenda.anchor now).labels.Sublist k.agenda.labels :=
      k.agenda.labels_anchor now ▸ List.Sublist.refl _
    cases act with
    | step step =>
      cases step with
      | boot loader status now => cases hboot
      | event event status now =>
        rw [act_of_isCall hdown rfl]
        exact ⟨List.Sublist.refl _, rfl⟩
      | run token chore status now ended =>
        have hnext (rearm : Rearm) :
            (k.agenda.complete token rearm ended).nextToken = k.agenda.nextToken := by
          cases rearm <;> rfl
        exact ⟨k.agenda.labels_complete_sublist token _ ended, hnext _⟩
      | poll now => exact ⟨hanchor now, rfl⟩
      | nextDeadline now => exact ⟨hanchor now, rfl⟩
    | _ => exact ⟨List.Sublist.refl _, rfl⟩

theorem terms_act (hboot : act.isBoot = false) :
    (k.act act).controller.terms = k.controller.terms := by
  rw [controller_act]
  rcases act.request_cases k.agenda with ⟨hnone, -⟩ | ⟨request, hrequest, -, hinput⟩
  · rw [hnone]
    rfl
  · obtain ⟨input, rfl⟩ := hinput hboot
    rw [hrequest]
    exact k.controller.terms_take input

/-- A console whose controller keeps the tokens of chores that are registered. -/
def Enrolled (k : Console S ι capacity) : Prop :=
  ∀ chore token, k.controller.terms.tokenOf chore = some token → (token, chore) ∈ k.agenda.labels

section

variable (k : Console S ι capacity) (loader : Asset → Option ι) (status : Status) (now : UInt32)

/-- A boot registers both chores, as far as there is room. -/
theorem agenda_boot :
    (k.boot loader status now).agenda =
      ((k.agenda.register .idleCheck k.controller.settings.timing.checkInterval).1.register
        .barRedraw k.controller.settings.timing.barInterval).1 :=
  k.controller.snd_boot loader k.agenda status now

theorem enrolled_boot : (k.boot loader status now).Enrolled := by
  have hterms : (k.boot loader status now).controller.terms = _ :=
    k.controller.terms_boot loader k.agenda status now
  rw [Enrolled, agenda_boot, hterms]
  intro chore token htoken
  cases chore with
  | idleCheck => exact Agenda.subset_labels_register _ _ _ (Agenda.mem_labels_register htoken)
  | barRedraw => exact Agenda.mem_labels_register htoken

end

theorem Enrolled.act_of_live (h : k.Enrolled) (hlive : k.controller.shutDown = false)
    (act : Act ι) : (k.act act).Enrolled := by
  cases hboot : act.isBoot with
  | true =>
    obtain ⟨loader, status, now, rfl⟩ := Act.eq_boot_of_isBoot hboot
    exact k.enrolled_boot loader status now
  | false =>
    rw [Enrolled, terms_act hboot, (labels_act hlive hboot).1]
    exact h

/-! ### Runs with one boot -/

/-- A console that was not booted: nothing was ever registered. -/
structure Bare (k : Console S ι capacity) : Prop where
  labels : k.agenda.labels = []
  nextToken : k.agenda.nextToken = 0
  tokenOf : ∀ chore, k.controller.terms.tokenOf chore = none

omit [Surface S ι] in
theorem bare_start (surface : S) (settings : Settings) (born : UInt32) :
    (start surface settings born : Console S ι capacity).Bare :=
  ⟨rfl, rfl, fun chore => by cases chore <;> rfl⟩

theorem Bare.of_not_boot (h : k.Bare) (hboot : act.isBoot = false) : (k.act act).Bare := by
  obtain ⟨hlabels, hnext⟩ := labels_act_sublist k hboot
  rw [h.labels] at hlabels
  refine ⟨List.sublist_nil.1 hlabels, hnext.trans h.nextToken, fun chore => ?_⟩
  rw [terms_act hboot]
  exact h.tokenOf chore

/-- The first boot registers two chores, with different tokens. -/
theorem Bare.carriers_boot_le_one (h : k.Bare) (loader : Asset → Option ι) (status : Status)
    (now : UInt32) (token : Token) : (k.boot loader status now).agenda.carriers token ≤ 1 := by
  have hempty : (.empty : Agenda capacity).Counted := ⟨rfl, rfl, List.pairwise_singleton _ _⟩
  have hcounted : k.agenda.Counted := hempty.of_labels_eq h.labels h.nextToken
  rw [agenda_boot]
  refine ((hcounted.register _ _).register _ _).carriers_le_one ?_ token
  rw [← Agenda.length_labels]
  calc
    _ ≤ _ := Agenda.length_labels_register_le ..
    _ ≤ k.agenda.labels.length + 1 + 1 := Nat.succ_le_succ (Agenda.length_labels_register_le ..)
    _ ≤ 256 := by rw [h.labels]; decide

section

variable (surface : S) (settings : Settings) (born : UInt32) {acts : List (Act ι)}

theorem bare_run (hboots : acts.countP Act.isBoot = 0) :
    ((start surface settings born : Console S ι capacity).run acts).Bare := by
  -- Induction on the acts from the last one on, which is no boot and finds the console bare.
  induction acts using List.reverseRecOn with
  | nil => exact bare_start surface settings born
  | append_singleton acts act ih =>
    rw [List.countP_append, Nat.add_eq_zero_iff] at hboots
    have hact : act.isBoot = false := by simpa using hboots.2
    rw [run, List.foldl_concat]
    exact (ih hboots.1).of_not_boot hact

/-- **Tokens differ** in a run that boots once at most, whether or not it is shut down. -/
theorem carriers_run_le_one (honce : acts.countP Act.isBoot ≤ 1) (token : Token) :
    ((start surface settings born : Console S ι capacity).run acts).agenda.carriers token ≤ 1 := by
  -- Induction on the acts from the last one on: it is the only boot, or adds no chore.
  induction acts using List.reverseRecOn with
  | nil => exact Nat.zero_le 1
  | append_singleton acts act ih =>
    rw [List.countP_append, List.countP_singleton] at honce
    rw [run, List.foldl_concat]
    cases hact : act.isBoot with
    | true =>
      rw [hact] at honce
      have hbare : ((start surface settings born : Console S ι capacity).run acts).Bare :=
        bare_run surface settings born (Nat.le_zero.1 (Nat.le_of_add_le_add_right honce))
      obtain ⟨loader, status, now, rfl⟩ := Act.eq_boot_of_isBoot hact
      exact hbare.carriers_boot_le_one loader status now token
    | false =>
      have hsublist := (labels_act_sublist
        ((start surface settings born : Console S ι capacity).run acts) hact).1.map Prod.fst
      exact Nat.le_trans (hsublist.count_le token) (ih (Nat.le_of_add_right_le honce))

/-- **A chore that runs after a shutdown never runs again**, if the run boots once at most: its
token, which no other chore has, is not carried any more. -/
theorem carriers_run_eq_zero {ran : Act ι} {rest : List (Act ι)} {chore : Chore} {token : Token}
    (honce : (acts ++ ran :: rest).countP Act.isBoot ≤ 1)
    (hdown : ((start surface settings born : Console S ι capacity).run
      acts).controller.shutDown = true)
    (htoken : ((start surface settings born : Console S ι capacity).run
      acts).controller.terms.tokenOf chore = some token) (hran : ran.runs token = true) :
    ((start surface settings born : Console S ι capacity).run
      (acts ++ ran :: rest)).agenda.carriers token = 0 := by
  rw [List.countP_append] at honce
  -- the controller keeps the token of a boot, so no other one follows
  have hbooted : acts.countP Act.isBoot ≠ 0 := by
    intro hnone
    rw [(bare_run surface settings born hnone).tokenOf] at htoken
    cases htoken
  have hnone : ∀ act ∈ ran :: rest, act.isBoot = false := by
    have hcount : (ran :: rest).countP Act.isBoot = 0 := by omega
    simpa using List.countP_eq_zero.1 hcount
  have hone : ((start surface settings born : Console S ι capacity).run
      acts).agenda.carriers token ≤ 1 :=
    carriers_run_le_one surface settings born (by omega) token
  obtain ⟨-, -, hcarriers⟩ := run_of_shutDown hdown hnone
  have hruns : 0 < (ran :: rest).countP (·.runs token) :=
    List.countP_pos_iff.2 ⟨ran, List.mem_cons_self .., hran⟩
  rw [run, List.foldl_append]
  exact (hcarriers token).trans (by omega)

end

/-! ### Until the shutdown -/

/-- What holds of a run without a shutdown: its chores are enrolled, and the key LEDs were not asked
for. -/
structure Begun (k : Console S ι capacity) : Prop where
  live : k.controller.shutDown = false
  enrolled : k.Enrolled
  darks : k.darks = 0

theorem begun_run (surface : S) (settings : Settings) (born : UInt32) {acts : List (Act ι)}
    (hacts : ∀ act ∈ acts, act.isShutdown = false) :
    Begun ((start surface settings born : Console S ι capacity).run acts) := by
  -- Induction on the acts from the last one on, which finds the console live and leaves it so.
  induction acts using List.reverseRecOn with
  | nil =>
    have henrolled : (start surface settings born : Console S ι capacity).Enrolled := by
      intro chore token h
      cases chore <;> cases h
    exact ⟨rfl, henrolled, rfl⟩
  | append_singleton acts act ih =>
    have hact := hacts act (List.mem_append_right _ (List.mem_singleton_self _))
    have hbegun := ih fun other hother => hacts other (List.mem_append_left _ hother)
    rw [run, List.foldl_concat]
    constructor
    case live => exact (shutDown_act _ act).trans (by rw [hact, Bool.or_false]; exact hbegun.live)
    case enrolled => exact hbegun.enrolled.act_of_live hbegun.live act
    case darks => exact (darks_act _ act).trans (by rw [hact, Bool.and_false]; exact hbegun.darks)

end Console

end StatusPanel
