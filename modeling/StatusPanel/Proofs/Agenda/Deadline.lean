import StatusPanel.Proofs.Agenda.Drain

/-!
# The time until a chore is to run

An agenda is asked for the time until a chore is to run, and later for the chore to run. The two
answers agree: until that time is over there is no chore to run, and then there is one, whatever
times the entries have and wherever the clock wraps. A time that is not reached lies at most half a
turn of the clock ahead, so on the way there it never counts as past.

## Main results

* `Entry.ready_add_iff`: up to the end of its wait an entry is ready at the end only
* `Agenda.snd_nextDeadline_eq_some_iff`: the answer is the least wait
* `Agenda.poll_at_deadline`: the chores to run up to the time of the answer
-/

namespace StatusPanel

/-- Up to the end of its wait an entry is ready at the end only. -/
theorem Entry.ready_add_iff {e : Entry} {time : UInt32} (hdue : e.due = .fixed time)
    {now t : UInt32} (ht : t ≤ e.wait now) : e.ready (now + t) = true ↔ t = e.wait now := by
  unfold wait at ht ⊢
  rw [← ready] at ht ⊢
  by_cases hready : e.ready now = true
  · rw [if_pos hready] at ht ⊢
    obtain rfl : t = 0 := UInt32.le_zero_iff.1 ht
    rw [UInt32.add_zero]
    exact iff_of_true hready rfl
  · rw [if_neg hready] at ht ⊢
    obtain ⟨hcalm, hearly⟩ := Bool.or_eq_false_iff.1 (Bool.eq_false_iff.2 hready)
    rw [ready, hcalm, Bool.false_or]
    -- the time lies between now and half a turn from now, on the clock that wraps
    simp only [isDue, overdue, hdue, Due.time, decide_eq_true_eq, decide_eq_false_iff_not,
      UInt32.lt_iff_toNat_lt, UInt32.le_iff_toNat_le, ← UInt32.toNat_inj, UInt32.toNat_sub,
      UInt32.toNat_add, show (0x80000000 : UInt32).toNat = 2147483648 from rfl] at hearly ht ⊢
    have hnow := now.toNat_lt
    have htime := time.toNat_lt
    omega

namespace Agenda

variable {capacity : Nat}

theorem entries_anchor (a : Agenda capacity) (now : UInt32) :
    (a.anchor now).entries = a.entries.map (·.anchor now) := rfl

/-- A second look at the clock changes nothing, whatever it finds to run. -/
theorem fst_poll_anchor (a : Agenda capacity) (now later : UInt32) :
    ((a.anchor now).poll later).1 = a.anchor now :=
  a.anchor_anchor now later

theorem snd_poll_anchor_eq_none_iff (a : Agenda capacity) (now later : UInt32) :
    ((a.anchor now).poll later).2 = none ↔ ∀ e ∈ (a.anchor now).entries, e.ready later = false := by
  rw [poll, Option.map_eq_none_iff, pick_eq_none_iff, anchor_anchor]

theorem due_of_mem_anchor {a : Agenda capacity} {now : UInt32} {e : Entry}
    (he : e ∈ (a.anchor now).entries) : ∃ time, e.due = .fixed time := by
  obtain ⟨e, -, rfl⟩ := List.mem_map.1 he
  exact ⟨_, rfl⟩

/-- The time until a chore is to run is the least wait of an entry. -/
theorem snd_nextDeadline_eq_some_iff {a : Agenda capacity} {now wait : UInt32} :
    (a.nextDeadline now).2 = some wait ↔
      (∃ e ∈ (a.anchor now).entries, e.wait now = wait) ∧
        ∀ e ∈ (a.anchor now).entries, wait ≤ e.wait now := by
  rw [nextDeadline, List.min?_eq_some_iff, List.mem_map, List.forall_mem_map]

theorem snd_nextDeadline_eq_none_iff {a : Agenda capacity} {now : UInt32} :
    (a.nextDeadline now).2 = none ↔ a.entries = [] := by
  rw [nextDeadline, List.min?_eq_none_iff, List.map_eq_nil_iff, anchor, List.map_eq_nil_iff]

/-- Up to the time of the answer there is a chore to run at the end only. -/
theorem snd_poll_add_eq_none_iff {a : Agenda capacity} {now wait : UInt32}
    (h : (a.nextDeadline now).2 = some wait) {t : UInt32} (ht : t ≤ wait) :
    ((a.anchor now).poll (now + t)).2 = none ↔ t ≠ wait := by
  obtain ⟨⟨first, hfirst, hwait⟩, hleast⟩ := snd_nextDeadline_eq_some_iff.1 h
  rw [snd_poll_anchor_eq_none_iff]
  constructor
  · rintro hcalm rfl
    obtain ⟨time, hdue⟩ := due_of_mem_anchor hfirst
    have hready := (Entry.ready_add_iff hdue (UInt32.le_of_eq hwait.symm)).2 hwait.symm
    rw [hcalm first hfirst] at hready
    cases hready
  · intro hne e he
    obtain ⟨time, hdue⟩ := due_of_mem_anchor he
    rw [Bool.eq_false_iff, ne_eq, Entry.ready_add_iff hdue (UInt32.le_trans ht (hleast e he))]
    -- a wait that ends now is not longer than the least one
    rintro rfl
    exact hne (UInt32.le_antisymm ht (hleast e he))

/-- **The time until a chore is to run.** No time is answered exactly if there are no chores. If a
time is answered, the agenda has no chore to run at any moment before the time is over, and has one
at that moment; asking for it changes nothing, so it may be asked for any number of times on the
way. In particular the time is zero exactly if there is a chore to run now. -/
theorem poll_at_deadline (a : Agenda capacity) (now : UInt32) :
    ((a.nextDeadline now).2 = none ↔ a.entries = []) ∧
      ((a.nextDeadline now).2 = some 0 ↔ (a.poll now).2 ≠ none) ∧
      ∀ wait, (a.nextDeadline now).2 = some wait →
        let looked := (a.nextDeadline now).1
        (∀ t < wait, looked.poll (now + t) = (looked, none)) ∧
          ∃ due, looked.poll (now + wait) = (looked, some due) := by
  have hnow : (a.poll now).2 = ((a.anchor now).poll (now + 0)).2 := by
    rw [UInt32.add_zero, poll, poll, anchor_anchor]
  refine ⟨snd_nextDeadline_eq_none_iff, ?_, fun wait hwait => ⟨fun t ht => ?_, ?_⟩⟩
  · rw [hnow]
    cases hnext : (a.nextDeadline now).2 with
    | none =>
      have hcalm : ((a.anchor now).poll (now + 0)).2 = none := by
        rw [snd_poll_anchor_eq_none_iff, entries_anchor, snd_nextDeadline_eq_none_iff.1 hnext]
        exact List.forall_mem_nil _
      exact iff_of_false (Option.some_ne_none 0).symm (not_not_intro hcalm)
    | some wait =>
      rw [ne_eq, snd_poll_add_eq_none_iff hnext UInt32.zero_le, not_not, Option.some_inj, eq_comm]
  · have hcalm := (snd_poll_add_eq_none_iff hwait (UInt32.le_of_lt ht)).2 (UInt32.ne_of_lt ht)
    exact Prod.ext (a.fst_poll_anchor now _) hcalm
  · have hsome := mt (snd_poll_add_eq_none_iff hwait (UInt32.le_refl wait)).1 (not_not_intro rfl)
    obtain ⟨due, hdue⟩ := Option.ne_none_iff_exists'.1 hsome
    exact ⟨due, Prod.ext (a.fst_poll_anchor now _) hdue⟩

/-- Two chores half a turn of the clock ahead, one of them not started, just before the clock
wraps. -/
def farAhead : Agenda 2 where
  entries := [⟨0, .idleCheck, false, .fixed 0x7FFFFFFF⟩,
    ⟨1, .barRedraw, false, .waiting 0x80000000⟩]
  nextToken := 2
  length_le := by decide

/-- There is no chore to run until half a turn of the clock is over. -/
theorem poll_at_deadline_farAhead :
    (farAhead.nextDeadline 0xFFFFFFFF).2 = some 0x80000000 ∧
      let looked := (farAhead.nextDeadline 0xFFFFFFFF).1
      (∀ t < 0x80000000, looked.poll (0xFFFFFFFF + t) = (looked, none)) ∧
        ∃ due, looked.poll (0xFFFFFFFF + 0x80000000) = (looked, some due) := by
  have hwait : (farAhead.nextDeadline 0xFFFFFFFF).2 = some 0x80000000 := by decide +kernel
  exact ⟨hwait, (poll_at_deadline farAhead 0xFFFFFFFF).2.2 _ hwait⟩

end Agenda

end StatusPanel
