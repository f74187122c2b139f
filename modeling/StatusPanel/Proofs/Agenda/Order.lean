import StatusPanel.Proofs.Agenda.Drain

/-!
# The order of a drain

A drain of chores that rest runs each entry that was ready once. The entries that are wanted soon
come first, as they were registered; then the others, the one that is overdue for the longest time
first, and of equals the one that was registered last. So the runs are determined by the table and
by the answers of the chores, and after the drain nothing is left to run.

## Main definitions

* `Entry.RunsBefore`: which of two ready entries is run before the other
* `Agenda.performed`: the runs of some entries, one after another

## Main results

* `Agenda.runsBefore_of_pick`: the entry to run now is run before every other one
* `Agenda.poll_drain_of_finished`: after a drain that came to its end no chore is to be run
* `Agenda.exists_order`: the entries that are run, in order
* `Agenda.drain_in_order`: the runs of a drain of chores that rest, and what they leave
-/

namespace StatusPanel

/-- Whether the first of two ready entries of a table is run before the second: one that is wanted
soon before the others and before those registered after it; one that is not before those that are
overdue for a shorter time, and of equals before those registered before it. -/
def Entry.RunsBefore (entries : List Entry) (now : UInt32) (e f : Entry) : Prop :=
  if e.soon = true then f.soon = true → [e, f].Sublist entries
  else
    f.soon = false ∧
      (f.overdue now < e.overdue now ∨
        f.overdue now = e.overdue now ∧ [f, e].Sublist entries)

/-- The order of two entries is the same in a table with more entries. -/
theorem Entry.RunsBefore.mono {entries more : List Entry} {now : UInt32} {e f : Entry}
    (h : RunsBefore entries now e f) (hsub : entries.Sublist more) : RunsBefore more now e f := by
  unfold RunsBefore at h ⊢
  split
  · rw [if_pos ‹_›] at h
    exact fun hsoon => (h hsoon).trans hsub
  · rw [if_neg ‹_›] at h
    exact ⟨h.1, h.2.imp_right fun heq => ⟨heq.1, heq.2.trans hsub⟩⟩

namespace Agenda

variable {capacity : Nat}

/-! ## The entry to run now -/

/-- The entry overdue for the longest time: those before it are not overdue for longer, and those
behind it for a shorter time. -/
theorem split_of_longestOverdue {now : UInt32} {best e : Entry} {entries : List Entry}
    (h : longestOverdue now (some best) entries = some e) :
    ∃ before behind, best :: entries = before ++ e :: behind ∧
      (∀ f ∈ before, f.overdue now ≤ e.overdue now) ∧
      ∀ f ∈ behind, f.overdue now < e.overdue now := by
  -- Induction on the entries not looked at yet; `best` stands for those that were.
  induction entries generalizing best with
  | nil =>
    obtain rfl := Option.some.inj h
    exact ⟨[], [], rfl, nofun, nofun⟩
  | cons next rest ih =>
    rw [longestOverdue] at h
    by_cases hle : best.overdue now ≤ next.overdue now
    · rw [if_pos hle] at h
      obtain ⟨before, behind, hsplit, hbefore, hbehind⟩ := ih h
      refine ⟨best :: before, behind, congrArg (best :: ·) hsplit, ?_, hbehind⟩
      -- `best` gave way to `next`, which is before `e` or is `e`
      have hnext : next.overdue now ≤ e.overdue now := by
        cases before with
        | nil =>
          rw [(List.cons.inj hsplit).1]
          exact UInt32.le_refl _
        | cons first _ => exact (List.cons.inj hsplit).1 ▸ hbefore first List.mem_cons_self
      exact List.forall_mem_cons.2 ⟨UInt32.le_trans hle hnext, hbefore⟩
    · rw [if_neg hle] at h
      have hlt : next.overdue now < best.overdue now := UInt32.not_le.1 hle
      obtain ⟨before, behind, hsplit, hbefore, hbehind⟩ := ih h
      cases before with
      | nil =>
        obtain ⟨rfl, rfl⟩ := List.cons.inj hsplit
        exact ⟨[], next :: rest, rfl, nofun, List.forall_mem_cons.2 ⟨hlt, hbehind⟩⟩
      | cons first before =>
        obtain ⟨rfl, rfl⟩ := List.cons.inj hsplit
        obtain ⟨hbest, hbefore⟩ := List.forall_mem_cons.1 hbefore
        have hnext : next.overdue now ≤ e.overdue now :=
          UInt32.le_trans (UInt32.le_of_lt hlt) hbest
        exact ⟨best :: next :: before, behind, rfl,
          List.forall_mem_cons.2 ⟨hbest, List.forall_mem_cons.2 ⟨hnext, hbefore⟩⟩, hbehind⟩

theorem split_of_longestOverdue_none {now : UInt32} {e : Entry} {entries : List Entry}
    (h : longestOverdue now none entries = some e) :
    ∃ before behind, entries = before ++ e :: behind ∧
      (∀ f ∈ before, f.overdue now ≤ e.overdue now) ∧
      ∀ f ∈ behind, f.overdue now < e.overdue now := by
  cases entries with
  | nil => cases h
  | cons first rest => exact split_of_longestOverdue h

/-- Two entries of a table, one behind the other. -/
theorem pair_sublist {entries before behind : List Entry} {e f : Entry}
    (h : entries = before ++ e :: behind) (hf : f ∈ behind) : [e, f].Sublist entries := by
  rw [h]
  exact ((List.singleton_sublist.2 hf).cons_cons e).trans (List.sublist_append_right ..)

/-- The entry to run now is run before every other ready one. -/
theorem runsBefore_of_pick {entries : List Entry} {now : UInt32} {e f : Entry}
    (h : pick entries now = some e) (hf : f ∈ entries.filter (·.ready now)) (hne : f ≠ e) :
    Entry.RunsBefore (entries.filter (·.ready now)) now e f := by
  obtain ⟨hmem, hready⟩ := List.mem_filter.1 hf
  have heready : e.ready now = true := (ready_of_pick h).2
  -- two ready entries of the table are ready entries in the same order
  have hkept {x y : Entry} (hx : x.ready now = true) (hy : y.ready now = true)
      (hxy : [x, y].Sublist entries) : [x, y].Sublist (entries.filter (·.ready now)) := by
    simpa [hx, hy] using hxy.filter (·.ready now)
  unfold pick at h
  cases hsoon : entries.find? (·.soon) with
  | some first =>
    rw [hsoon] at h
    obtain rfl := Option.some.inj h
    obtain ⟨hesoon, before, behind, hsplit, hcalm⟩ := List.find?_eq_some_iff_append.1 hsoon
    rw [Entry.RunsBefore, if_pos hesoon]
    intro hfsoon
    -- no entry before the first that is wanted soon is wanted soon
    have hbehind : f ∈ behind := by
      rw [hsplit, List.mem_append, List.mem_cons] at hmem
      rcases hmem with hbefore | heq | hbehind
      · have hnot := hcalm f hbefore
        rw [hfsoon] at hnot
        cases hnot
      · exact absurd heq hne
      · exact hbehind
    exact hkept heready hready (pair_sublist hsplit hbehind)
  | none =>
    rw [hsoon] at h
    have hcalm : ∀ x ∈ entries, x.soon = false := fun x hx =>
      Bool.eq_false_iff.2 (List.find?_eq_none.1 hsoon x hx)
    obtain ⟨before, behind, hsplit, hbefore, hbehind⟩ := split_of_longestOverdue_none h
    have hemem : e ∈ entries.filter (·.isDue now) := by
      rw [hsplit]
      exact List.mem_append_right _ List.mem_cons_self
    have hfdue : f.isDue now = true := by
      rw [Entry.ready, hcalm f hmem, Bool.false_or] at hready
      exact hready
    have hfmem : f ∈ before ++ e :: behind := hsplit ▸ List.mem_filter.2 ⟨hmem, hfdue⟩
    have hesoon : ¬e.soon = true := by
      rw [hcalm e (List.mem_filter.1 hemem).1]
      exact Bool.false_ne_true
    rw [Entry.RunsBefore, if_neg hesoon]
    refine ⟨hcalm f hmem, ?_⟩
    rw [List.mem_append, List.mem_cons] at hfmem
    rcases hfmem with hfbefore | heq | hfbehind
    · rcases UInt32.lt_or_eq_of_le (hbefore f hfbefore) with hlt | heq
      · exact Or.inl hlt
      · -- an equal one before `e` was registered before it
        obtain ⟨left, right, rfl⟩ := List.append_of_mem hfbefore
        have hsplit' : entries.filter (·.isDue now) = left ++ f :: (right ++ e :: behind) := by
          rw [hsplit, List.append_assoc, List.cons_append]
        have hpair : [f, e].Sublist (entries.filter (·.isDue now)) :=
          pair_sublist hsplit' (List.mem_append_right _ List.mem_cons_self)
        exact Or.inr ⟨heq, hkept hready heready (hpair.trans List.filter_sublist)⟩
    · exact absurd heq hne
    · exact Or.inl (hbehind f hfbehind)

/-! ## The runs in order -/

section

variable {σ : Type} {act : σ → Chore → σ × Rearm} {now : UInt32}

/-- The runs of entries one after another, from a state on. -/
def performed (act : σ → Chore → σ × Rearm) (state : σ) : List Entry → List ChoreRun
  | [] => []
  | e :: rest =>
    ⟨e.token, e.chore, (act state e.chore).2⟩ :: performed act (act state e.chore).1 rest

theorem foldl_performed (act : σ → Chore → σ × Rearm) (state : σ) (order : List Entry) :
    (performed act state order).foldl (fun s run => (act s run.chore).1) state =
      order.foldl (fun s e => (act s e.chore).1) state := by
  induction order generalizing state with
  | nil => rfl
  | cons e rest ih => exact ih _

/-- After a drain that came to its end no chore is to be run. -/
theorem poll_drain_of_finished {limit : Nat} {state : σ} {a : Agenda capacity}
    (h : (a.drain act now limit state).finished = true) :
    ((a.drain act now limit state).agenda.poll now).2 = none := by
  induction limit generalizing state a with
  | zero =>
    cases hpoll : (a.poll now).2 with
    | none =>
      rw [drain_of_poll_none hpoll]
      rwa [poll, anchor_anchor]
    | some due =>
      rw [drain_zero_of_poll_some hpoll] at h
      cases h
  | succ limit ih =>
    rcases hpoll : (a.poll now).2 with _ | ⟨token, chore⟩
    · rw [drain_of_poll_none hpoll]
      rwa [poll, anchor_anchor]
    · rw [drain_succ_of_poll_some hpoll] at h ⊢
      exact ih h

/-- A drain of chores that rest runs the ready entries in their order. -/
theorem exists_order (hrests : ∀ state chore, (act state chore).2.Rests) {limit : Nat} (state : σ)
    {a : Agenda capacity} (hnodup : (a.entries.map Entry.token).Nodup)
    (hlimit : (a.readyEntries now).length ≤ limit) :
    ∃ order : List Entry, order.Perm (a.readyEntries now) ∧
      order.Pairwise (Entry.RunsBefore (a.readyEntries now) now) ∧
      (a.drain act now limit state).runs = performed act state order := by
  -- Induction on the limit: the first run leaves the other ready entries, in the same order.
  induction limit generalizing state a with
  | zero =>
    have hnone : (a.poll now).2 = none :=
      poll_eq_none_iff.2 (List.eq_nil_of_length_eq_zero (Nat.le_zero.1 hlimit))
    rw [drain_of_poll_none hnone, poll_eq_none_iff.1 hnone]
    exact ⟨[], .refl _, .nil, rfl⟩
  | succ limit ih =>
    rcases hpoll : (a.poll now).2 with _ | ⟨token, chore⟩
    · rw [drain_of_poll_none hpoll, poll_eq_none_iff.1 hpoll]
      exact ⟨[], .refl _, .nil, rfl⟩
    · obtain ⟨e, hpick, hnamed⟩ := Option.map_eq_some_iff.1 hpoll
      obtain ⟨rfl, rfl⟩ := Prod.mk.inj hnamed
      have he : e ∈ a.readyEntries now := List.mem_filter.2 (ready_of_pick hpick)
      have hperm := perm_readyEntries hnodup he
      have hready := readyEntries_complete hnodup e.token (hrests state e.chore) now
      have hlength := hperm.length_eq
      rw [List.length_cons, ← hready] at hlength
      have hnodup' := nodup_tokens_complete (a := a.anchor now) (by rwa [tokens_anchor]) e.token
        (act state e.chore).2 now
      obtain ⟨order, hrest, hsorted, hruns⟩ := ih (act state e.chore).1 hnodup' (by omega)
      rw [hready] at hrest hsorted
      refine ⟨e :: order, (hrest.cons e).trans hperm, ?_, ?_⟩
      · refine List.pairwise_cons.2 ⟨fun f hf => ?_, ?_⟩
        · obtain ⟨hf, hother⟩ := List.mem_filter.1 (hrest.mem_iff.1 hf)
          exact runsBefore_of_pick hpick hf fun heq => bne_iff_ne.1 hother (congrArg _ heq)
        · exact hsorted.imp fun hbefore => hbefore.mono List.filter_sublist
      · rw [drain_succ_of_poll_some hpoll]
        exact congrArg (_ :: ·) hruns

/-- **The runs of a drain, and what they leave.** Take a table in which no two entries carry one
token, and chores that all rest after their runs. Then the drain comes to its end, whatever greater
number of runs it might make, with nothing left to run. It runs the entries that were ready, each of
them once, in their order, each chore with the state that the runs before it left. Every entry that
ran is re-armed or removed as its chore answered, and every other one stays; what is left of the
entries stays in place. -/
theorem drain_in_order (hrests : ∀ state chore, (act state chore).2.Rests) (state : σ)
    {a : Agenda capacity} (hnodup : (a.entries.map Entry.token).Nodup) {limit : Nat}
    (hlimit : (a.readyEntries now).length ≤ limit) :
    let drained := a.drain act now limit state
    drained.finished = true ∧ (drained.agenda.poll now).2 = none ∧
      (∃ order : List Entry, order.Perm (a.readyEntries now) ∧
        order.Pairwise (Entry.RunsBefore (a.readyEntries now) now) ∧
        drained.runs = performed act state order ∧
        drained.state = order.foldl (fun s e => (act s e.chore).1) state) ∧
      drained.agenda.entries = (a.anchor now).entries.filterMap (Entry.outcome drained.runs now) ∧
      ∀ e ∈ (a.anchor now).entries,
        if e.ready now then
          ∃ run ∈ drained.runs, run.label = e.label ∧
            e.outcome drained.runs now = e.settle run.rearm now
        else e.outcome drained.runs now = some e := by
  intro drained
  have hact {s : σ} (_ : True) (chore : Chore) : True ∧ (act s chore).2.Rests :=
    ⟨trivial, hrests s chore⟩
  have hstate : (fun _ : σ => True) state := trivial
  obtain ⟨hfinished, hperm, hentries⟩ := drain_of_rests hact hstate hnodup hlimit
  obtain ⟨order, horder, hsorted, hruns⟩ := exists_order hrests state hnodup hlimit
  refine ⟨hfinished, poll_drain_of_finished hfinished, ⟨order, horder, hsorted, hruns, ?_⟩,
    hentries, fun e he => ?_⟩
  · exact (state_drain act now limit state a).trans (hruns ▸ foldl_performed act state order)
  · exact outcome_of_perm (by rwa [tokens_anchor]) hperm he

end

/-- A table when the clock has just wrapped: two entries are overdue for the same time, two are
wanted soon, of which the second waits for its first look at the clock, and one is not due. -/
def crowded : Agenda 5 where
  entries :=
    [⟨0, .idleCheck, false, .fixed 0xFFFFFFF0⟩, ⟨1, .barRedraw, true, .fixed 100⟩,
      ⟨2, .idleCheck, false, .fixed 100⟩, ⟨3, .barRedraw, false, .fixed 0xFFFFFFF0⟩,
      ⟨4, .idleCheck, true, .waiting 10⟩]
  nextToken := 5
  length_le := by decide

/-- Chores that count the runs, and by turns are re-armed with the longest delay and removed. -/
def byTurns (runs : Nat) (_chore : Chore) : Nat × Rearm :=
  (runs + 1, if runs % 2 = 0 then .after 0x80000000 else .cancel)

/-- The drain of the crowded table ends after as many runs as there are ready entries. -/
theorem drain_in_order_crowded :
    (∀ runs chore, (byTurns runs chore).2.Rests) ∧ (crowded.entries.map Entry.token).Nodup ∧
      (crowded.readyEntries 5).length = 4 ∧
      let drained := crowded.drain byTurns 5 4 0
      drained.finished = true ∧ (drained.agenda.poll 5).2 = none ∧
        drained.runs.map ChoreRun.token = [1, 4, 3, 0] ∧
        drained.agenda.entries =
          [⟨1, .barRedraw, false, .fixed 0x80000005⟩, ⟨2, .idleCheck, false, .fixed 100⟩,
            ⟨3, .barRedraw, false, .fixed 0x80000005⟩] := by
  have hrests : ∀ runs chore, (byTurns runs chore).2.Rests := by
    intro runs chore
    unfold byTurns
    split
    · show (0 : UInt32) < 0x80000000 ∧ (0x80000000 : UInt32) ≤ 0x80000000
      decide
    · exact trivial
  have hnodup : (crowded.entries.map Entry.token).Nodup := by decide
  have hready : (crowded.readyEntries 5).length = 4 := by decide +kernel
  obtain ⟨hfinished, hpoll, -⟩ := drain_in_order hrests 0 hnodup (Nat.le_of_eq hready)
  exact ⟨hrests, hnodup, hready, hfinished, hpoll, by decide +kernel, by decide +kernel⟩

end Agenda

end StatusPanel
