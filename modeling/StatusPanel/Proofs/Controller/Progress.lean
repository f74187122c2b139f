import StatusPanel.Proofs.Controller.Console
import StatusPanel.Proofs.Settings.Range
import StatusPanel.Surface.Recorder

/-!
# Drains that come to their end

Settings that were read have intervals that are not zero, so a controller re-arms its chores with
the intervals of the text. A chore whose interval is longer than half a turn of the clock is due
again at the time it ran. So the first drain of such a console never ends, and no drain of it does
until a shutdown removes its chores. Every drain of any other console ends and runs each chore at
most once.

## Main definitions

* `Console.Reached`: the consoles that come from a boot
* `Console.EndsDrain`: a drain that comes to its end

## Main results

* `Console.Reached.not_endsDrain`: the drains that never end
* `Console.Reached.endsDrain_iff`: the consoles whose drains end
* `Console.not_endsDrain_endless`: a text that is accepted, and a drain that never ends
-/

namespace StatusPanel

namespace Console

variable {S ι : Type} [Surface S ι] {capacity : Nat}

/-- A console that comes from a boot by events and by drains that came to their end. -/
inductive Reached (settings : Settings) : Console S ι capacity → Prop
  | boot (surface : S) (born : UInt32) (loader : Asset → Option ι) (status : Status)
    (now : UInt32) : Reached settings ((start surface settings born).boot loader status now)
  | handle {k : Console S ι capacity} (h : Reached settings k) (event : Event) (status : Status)
    (now : UInt32) : Reached settings (k.handle event status now)
  | settle {k : Console S ι capacity} (h : Reached settings k) (status : Status) (now : UInt32)
    (limit : Nat) (hfinished : (k.drain status now limit).finished = true) :
    Reached settings (k.settle status now limit)

/-- Whether a drain comes to its end after some number of runs. -/
def EndsDrain (k : Console S ι capacity) (status : Status) (now : UInt32) : Prop :=
  ∃ limit, (k.drain status now limit).finished = true

namespace Reached

variable {settings : Settings} {k : Console S ι capacity}

theorem staffed (hcapacity : 2 ≤ capacity) (h : Reached settings k) :
    Staffed settings k.controller k.agenda := by
  induction h with
  | boot surface born loader status now =>
    exact staffed_boot hcapacity surface settings born loader status now
  | handle _ event status now ih => exact ih.handle event status now
  | settle _ status now limit _ ih => exact ih.drain status now limit

/-- A chore that waits for its first look at the clock with a delay that is longer than half a turn
is due whenever the drain looks, and is due again after its run. -/
theorem finished_drain_of_waiting (hstaffed : Staffed settings k.controller k.agenda)
    (hlive : k.controller.shutDown = false) {chore : Chore}
    (hlong : ¬interval settings chore ≤ 0x80000000)
    (hwaiting : (chore, .waiting (interval settings chore)) ∈ k.agenda.dues) (status : Status)
    (now : UInt32) (limit : Nat) : (k.drain status now limit).finished = false := by
  obtain ⟨e, he, hpair⟩ := List.mem_map.1 hwaiting
  obtain ⟨rfl, hdelay⟩ := Prod.mk.inj hpair
  have hrests : ¬(k.controller.rearm e.chore).Rests := by
    rw [hstaffed.rests_iff, hlive]
    rintro (hshut | hle)
    · cases hshut
    · exact hlong hle
  have hdue : k.agenda.HasDue e.chore now := by
    refine ⟨e.anchor now, List.mem_map_of_mem he, rfl, ?_⟩
    rw [Entry.isDue_anchor, Entry.isDue_of_waiting hdelay]
    exact fun hrest => hlong hrest.2
  refine Agenda.finished_drain_of_restless
    (P := fun c : Controller S ι => c.rearm = k.controller.rearm) ?_ ?_ limit rfl
    hstaffed.nodup_tokens hdue
  · intro c hc ran
    rw [Controller.rearm_runChore, hc]
  · intro c hc
    rw [Controller.snd_runChore, hc]
    exact hrests

/-- Until a shutdown, a chore with such a delay waits for its first look at the clock: a drain that
looked did not come to its end. -/
theorem waiting (hcapacity : 2 ≤ capacity) (h : Reached settings k)
    (hlive : k.controller.shutDown = false) {chore : Chore}
    (hlong : ¬interval settings chore ≤ 0x80000000) :
    (chore, .waiting (interval settings chore)) ∈ k.agenda.dues := by
  induction h with
  | boot surface born loader status now =>
    rw [Agenda.dues, entries_boot hcapacity]
    cases chore with
    | idleCheck => exact List.mem_cons_self ..
    | barRedraw => exact List.mem_cons_of_mem _ (List.mem_singleton_self _)
  | @handle k h event status now ih =>
    have hbefore : k.controller.shutDown = false := by
      rw [controller_handle, Controller.shutDown_handle, Bool.or_eq_false_iff] at hlive
      exact hlive.1
    have hdues : (k.handle event status now).agenda.dues = k.agenda.dues := by
      rw [agenda_handle, Controller.snd_handle, hbefore]
      cases event with
      | key pressed => cases k.controller.barToken <;> simp
      | _ => rfl
    rw [hdues]
    exact ih hbefore
  | @settle k h status now limit hfinished ih =>
    have hbefore : k.controller.shutDown = false := by rwa [shutDown_settle] at hlive
    have hunfinished := finished_drain_of_waiting (h.staffed hcapacity) hbefore hlong (ih hbefore)
      status now limit
    rw [hfinished] at hunfinished
    cases hunfinished

/-- Until a shutdown, no drain ends if an interval is longer than half a turn of the clock. -/
theorem not_endsDrain (hcapacity : 2 ≤ capacity) (h : Reached settings k)
    (hlive : k.controller.shutDown = false) {chore : Chore}
    (hlong : ¬interval settings chore ≤ 0x80000000) (status : Status) (now : UInt32) :
    ¬k.EndsDrain status now := by
  rintro ⟨limit, hfinished⟩
  have hunfinished := finished_drain_of_waiting (h.staffed hcapacity) hlive hlong
    (h.waiting hcapacity hlive hlong) status now limit
  rw [hfinished] at hunfinished
  cases hunfinished

/-- If a drain ends, the chores rest after their runs. -/
theorem rests_of_endsDrain (hcapacity : 2 ≤ capacity) (h : Reached settings k) {status : Status}
    {now : UInt32} (hends : k.EndsDrain status now) (chore : Chore) :
    (k.controller.rearm chore).Rests := by
  rw [(h.staffed hcapacity).rests_iff]
  cases hlive : k.controller.shutDown with
  | true => exact Or.inl rfl
  | false =>
    by_contra hlong
    rw [not_or] at hlong
    exact h.not_endsDrain hcapacity hlive hlong.2 status now hends

end Reached

/-- The intervals of settings that were read are not changed. -/
theorem interval_of_read {text : String} {settings : Settings}
    (h : Settings.read text = .ok settings) :
    interval settings .idleCheck = settings.timing.checkInterval ∧
      interval settings .barRedraw = settings.timing.barInterval := by
  have hcheck := (Settings.inRange_of_read h .checkInterval).1
  have hbar := (Settings.inRange_of_read h .barInterval).1
  exact ⟨max_one_of_pos (UInt32.lt_iff_toNat_lt.2 hcheck),
    max_one_of_pos (UInt32.lt_iff_toNat_lt.2 hbar)⟩

/-- **Which consoles make progress.** Take a controller with the settings of any text that is
accepted, booted on an empty agenda, and let it handle events and drain its chores. Its next drain
comes to its end exactly if the controller was shut down, or neither interval of the text is longer
than half a turn of the clock. A drain that ends runs each chore at most once, and re-arms it with
the interval of the text unless the controller was shut down. -/
theorem Reached.endsDrain_iff {text : String} {settings : Settings}
    (hread : Settings.read text = .ok settings) (hcapacity : 2 ≤ capacity)
    {k : Console S ι capacity} (hk : Reached settings k) (status : Status) (now : UInt32) :
    (k.EndsDrain status now ↔
        k.controller.shutDown = true ∨
          settings.timing.checkInterval ≤ 0x80000000 ∧
            settings.timing.barInterval ≤ 0x80000000) ∧
      ∀ limit, (k.drain status now limit).finished = true →
        ((k.drain status now limit).runs.map ChoreRun.chore).Nodup ∧
          ∀ run ∈ (k.drain status now limit).runs, run.rearm =
            if k.controller.shutDown then .cancel
            else
              match run.chore with
              | .idleCheck => .after settings.timing.checkInterval
              | .barRedraw => .after settings.timing.barInterval := by
  have hstaffed := hk.staffed hcapacity
  obtain ⟨hcheck, hbar⟩ := interval_of_read hread
  refine ⟨⟨fun hends => ?_, fun hbrief => ?_⟩, fun limit hfinished => ⟨?_, fun run hrun => ?_⟩⟩
  · have hidle := (hstaffed.rests_iff _).1 (hk.rests_of_endsDrain hcapacity hends .idleCheck)
    have hredraw := (hstaffed.rests_iff _).1 (hk.rests_of_endsDrain hcapacity hends .barRedraw)
    rw [hcheck] at hidle
    rw [hbar] at hredraw
    rcases hidle with hshut | hidle
    · exact Or.inl hshut
    · exact hredraw.imp_right fun h => ⟨hidle, h⟩
  · refine ⟨k.agenda.size, (hstaffed.drain_of_rests (fun chore => ?_) status now (Nat.le_refl _)).1⟩
    rw [hstaffed.rests_iff]
    cases chore with
    | idleCheck => exact hbrief.imp_right fun h => hcheck ▸ h.1
    | barRedraw => exact hbrief.imp_right fun h => hbar ▸ h.2
  · have hrests := hk.rests_of_endsDrain hcapacity ⟨limit, hfinished⟩
    have hsize := hstaffed.drain_of_rests hrests status now (Nat.le_max_right limit k.agenda.size)
    have heq := Agenda.drain_eq_of_finished hfinished (Nat.le_max_left limit k.agenda.size)
    rw [heq] at hsize
    exact hsize.2.2.1
  · rw [Staffed.rearm_of_mem_runs _ _ _ _ _ run hrun, Controller.rearm, hstaffed.interval_eq]
    cases run.chore with
    | idleCheck => rw [hcheck]
    | barRedraw => rw [hbar]

/-- A text with the longest interval that comes to its end, and the shortest. -/
def longest : String :=
  "[timing]\nsleep_check_interval_ms = 2147483648\nbar_redraw_interval_ms = 1\n"

/-- The settings of that text. -/
def longestSettings : Settings :=
  { timing.checkInterval := 0x80000000, timing.barInterval := 1 }

/-- A console with these settings after its boot. -/
def longestBoot : Console Recorder Asset 4 :=
  (start {} longestSettings 0).boot some (.boot .initial) 0

/-- A console that looked at the clock with the longest interval, and whose bars are due and wanted
soon when the clock wraps, ends its drain. -/
theorem endsDrain_longest :
    let k :=
      (longestBoot.settle (.boot .initial) 0xFFFFFFFF 4).handle (.key true) (.boot .initial) 0
    Settings.read longest = .ok longestSettings ∧ Reached longestSettings k ∧
      k.EndsDrain (.boot .initial) 0 ∧
      (k.drain (.boot .initial) 0 4).runs = [⟨1, .barRedraw, .after 1⟩] := by
  intro k
  have hread : Settings.read longest = .ok longestSettings := by decide +kernel
  have hboot : Reached longestSettings longestBoot := by
    unfold longestBoot
    exact .boot ..
  have hlook : (longestBoot.drain (.boot .initial) 0xFFFFFFFF 4).finished = true := by
    decide +kernel
  have hk : Reached longestSettings k :=
    (hboot.settle (.boot .initial) 0xFFFFFFFF 4 hlook).handle (.key true) (.boot .initial) 0
  refine ⟨hread, hk, ?_, by decide +kernel⟩
  exact (hk.endsDrain_iff hread (by decide) (.boot .initial) 0).1.2 (Or.inr (by decide))

/-- A text that is accepted, with an interval longer than half a turn of the clock. -/
def endless : String := "[timing]\nbar_redraw_interval_ms = 4294967295\n"

/-- The settings of that text. -/
def endlessSettings : Settings := { timing.barInterval := 0xFFFFFFFF }

/-- A console with these settings after its boot. -/
def endlessBoot : Console Recorder Asset 4 :=
  (start {} endlessSettings 0).boot some (.boot .initial) 0

/-- The first drain with these settings never ends. -/
theorem not_endsDrain_endless :
    Settings.read endless = .ok endlessSettings ∧ Reached endlessSettings endlessBoot ∧
      ¬endlessBoot.EndsDrain (.boot .initial) 0 := by
  have hk : Reached endlessSettings endlessBoot := by
    unfold endlessBoot
    exact .boot ..
  have hlong : ¬interval endlessSettings .barRedraw ≤ 0x80000000 := by decide
  have hread : Settings.read endless = .ok endlessSettings := by decide +kernel
  exact ⟨hread, hk, hk.not_endsDrain (by decide) rfl hlong (.boot .initial) 0⟩

end Console

end StatusPanel
