import Mathlib.Data.List.Nodup
import StatusPanel.Agenda.Drain
import StatusPanel.Proofs.Agenda.Tokens

/-!
# Drains

An entry is ready if it is wanted soon or its time is reached. A drain runs the ready entries until
none is left. A chore rests after its run if it is removed, or its delay is neither zero nor longer
than half a turn of the clock; otherwise it is ready again at the time it ran. So a drain of chores
that all rest comes to its end and runs each ready entry once, and a drain that meets a chore that
does not rest never ends, however many runs it may make.

## Main definitions

* `Entry.ready`, `Agenda.readyEntries`: the entries to be run now
* `Rearm.Rests`: a chore is not ready again at the time it ran
* `Entry.settle`: what is left of an entry after its run

## Main results

* `Entry.ready_rearm_iff`: when a chore is ready again at the time it ran
* `Agenda.poll_eq_none_iff`, `Agenda.ready_of_poll`: what a look at the clock gives
* `Agenda.drain_of_rests`, `Agenda.entries_drain_of_rearm`: a drain of chores that rest
* `Agenda.finished_drain_of_restless`: a drain that never ends
-/

namespace StatusPanel

/-! ## Entries -/

/-- The token and the chore of a run. -/
def ChoreRun.label (run : ChoreRun) : Token × Chore := (run.token, run.chore)

/-- Whether a chore rests after its run: at the time it ran it is not to run again. -/
def Rearm.Rests : Rearm → Prop
  | .after delay => 0 < delay ∧ delay ≤ 0x80000000
  | .cancel => True

/-- A delay that starts now is over now if it is zero, or so long that its end seems to lie in the
last half turn of the clock. -/
theorem sub_add_lt_half_iff (now delay : UInt32) :
    now - (now + delay) < 0x80000000 ↔ ¬(0 < delay ∧ delay ≤ 0x80000000) := by
  have hnow := now.toNat_lt
  have hdelay := delay.toNat_lt
  rw [UInt32.lt_iff_toNat_lt, UInt32.lt_iff_toNat_lt, UInt32.le_iff_toNat_le, UInt32.toNat_sub,
    UInt32.toNat_add, show (0x80000000 : UInt32).toNat = 2147483648 from rfl,
    show (0 : UInt32).toNat = 0 from rfl]
  omega

namespace Entry

/-- The token and the chore of the entry. -/
def label (e : Entry) : Token × Chore := (e.token, e.chore)

/-- Whether the entry is to run when the clock is looked at now. -/
def ready (e : Entry) (now : UInt32) : Bool := e.soon || e.isDue now

/-- What is left of the entry after a run that ended now. -/
def settle (e : Entry) (rearm : Rearm) (now : UInt32) : Option Entry :=
  match rearm with
  | .after delay => some (e.rearm delay now)
  | .cancel => none

/-- What is left of the entry after runs that ended now. An entry that did not run stays. -/
def outcome (runs : List ChoreRun) (now : UInt32) (e : Entry) : Option Entry :=
  match runs.find? (·.token == e.token) with
  | some run => e.settle run.rearm now
  | none => some e

@[simp] theorem ready_anchor (e : Entry) (now : UInt32) : (e.anchor now).ready now = e.ready now :=
  rfl

@[simp] theorem anchor_rearm (e : Entry) (delay now : UInt32) :
    (e.rearm delay now).anchor now = e.rearm delay now := rfl

theorem isDue_rearm_iff (e : Entry) (delay now : UInt32) :
    (e.rearm delay now).isDue now = true ↔ ¬(Rearm.after delay).Rests := by
  rw [isDue, decide_eq_true_eq]
  exact sub_add_lt_half_iff now delay

/-- A chore is ready again at the time it ran exactly if it does not rest. -/
theorem ready_rearm_iff (e : Entry) (delay now : UInt32) :
    (e.rearm delay now).ready now = true ↔ ¬(Rearm.after delay).Rests := by
  rw [← isDue_rearm_iff e, ready]
  rfl

/-- A delay that has not started yet is over at its start under the same condition. -/
theorem isDue_of_waiting {e : Entry} {delay : UInt32} (h : e.due = .waiting delay) (now : UInt32) :
    e.isDue now = true ↔ ¬(Rearm.after delay).Rests := by
  rw [isDue, decide_eq_true_eq, overdue, h]
  exact sub_add_lt_half_iff now delay

/-- Nothing is left of an entry that is ready, or it keeps its token and its chore. -/
theorem of_settle {e e' : Entry} {rearm : Rearm} {now : UInt32} (h : e.settle rearm now = some e') :
    e'.label = e.label ∧ e'.anchor now = e' := by
  cases rearm with
  | after delay =>
    obtain rfl := Option.some.inj h
    exact ⟨rfl, rfl⟩
  | cancel => cases h

theorem not_ready_of_settle {e e' : Entry} {rearm : Rearm} (hrest : rearm.Rests) {now : UInt32}
    (h : e.settle rearm now = some e') : e'.ready now = false := by
  cases rearm with
  | after delay =>
    obtain rfl := Option.some.inj h
    rw [Bool.eq_false_iff, ne_eq, ready_rearm_iff]
    exact not_not_intro hrest
  | cancel => cases h

theorem outcome_cons (run : ChoreRun) (runs : List ChoreRun) (now : UInt32) (e : Entry) :
    outcome (run :: runs) now e =
      if run.token = e.token then e.settle run.rearm now else outcome runs now e := by
  unfold outcome
  rw [List.find?_cons]
  by_cases h : run.token = e.token
  · rw [if_pos h, beq_iff_eq.2 h]
  · rw [if_neg h, beq_eq_false_iff_ne.2 h]

theorem outcome_of_forall_ne {runs : List ChoreRun} {e : Entry} {now : UInt32}
    (h : ∀ run ∈ runs, run.token ≠ e.token) : outcome runs now e = some e := by
  have hnone : runs.find? (·.token == e.token) = none :=
    List.find?_eq_none.2 fun run hrun heq => h run hrun (beq_iff_eq.1 heq)
  rw [outcome, hnone]

/-- A run and then other ones, none of which has its token. -/
theorem filterMap_outcome_cons (run : ChoreRun) {runs : List ChoreRun}
    (hnot : ∀ other ∈ runs, other.token ≠ run.token) (entries : List Entry) (now : UInt32) :
    (entries.filterMap fun e =>
        if e.token = run.token then e.settle run.rearm now else some e).filterMap
          (outcome runs now) =
      entries.filterMap (outcome (run :: runs) now) := by
  rw [List.filterMap_filterMap]
  refine List.filterMap_congr fun e _ => ?_
  rw [outcome_cons]
  by_cases h : e.token = run.token
  · rw [if_pos h, if_pos h.symm]
    cases hsettle : e.settle run.rearm now with
    | none => rfl
    | some e' =>
      -- what the run left of the entry is not run again, and stays
      have htoken : e'.token = run.token := (Prod.mk.inj (of_settle hsettle).1).1.trans h
      exact outcome_of_forall_ne fun other hother => htoken ▸ hnot other hother
  · rw [if_neg h, if_neg (Ne.symm h), Option.bind_some]

end Entry

namespace Agenda

variable {capacity : Nat}

/-! ## Looking for the chore to run -/

theorem longestOverdue_eq_none_iff {now : UInt32} {best : Option Entry} {entries : List Entry} :
    longestOverdue now best entries = none ↔ best = none ∧ entries = [] := by
  induction entries generalizing best with
  | nil => simp [longestOverdue]
  | cons e rest ih =>
    cases best with
    | none => simp [longestOverdue, ih]
    | some b =>
      rw [longestOverdue, ih]
      split <;> simp

theorem mem_of_longestOverdue {now : UInt32} {best : Option Entry} {entries : List Entry}
    {e : Entry} (h : longestOverdue now best entries = some e) : best = some e ∨ e ∈ entries := by
  induction entries generalizing best with
  | nil => exact Or.inl h
  | cons first rest ih =>
    cases best with
    | none =>
      rcases ih h with hbest | hrest
      · rw [Option.some.inj hbest]
        exact Or.inr (List.mem_cons_self ..)
      · exact Or.inr (List.mem_cons_of_mem _ hrest)
    | some b =>
      rw [longestOverdue] at h
      rcases ih h with hbest | hrest
      · split at hbest
        · rw [Option.some.inj hbest]
          exact Or.inr (List.mem_cons_self ..)
        · exact Or.inl hbest
      · exact Or.inr (List.mem_cons_of_mem _ hrest)

theorem pick_eq_none_iff {entries : List Entry} {now : UInt32} :
    pick entries now = none ↔ ∀ e ∈ entries, e.ready now = false := by
  unfold pick
  cases hsoon : entries.find? (·.soon) with
  | some e =>
    have hready : e.ready now = true := by
      rw [Entry.ready, List.find?_some hsoon, Bool.true_or]
    refine iff_of_false nofun fun h => ?_
    rw [h e (List.mem_of_find?_eq_some hsoon)] at hready
    cases hready
  | none =>
    have hcalm := List.find?_eq_none.1 hsoon
    dsimp only
    rw [longestOverdue_eq_none_iff, List.filter_eq_nil_iff]
    constructor
    · rintro ⟨-, hdue⟩ e he
      rw [Entry.ready, Bool.eq_false_iff.2 (hcalm e he), Bool.eq_false_iff.2 (hdue e he),
        Bool.or_false]
    · intro h
      refine ⟨rfl, fun e he hdue => ?_⟩
      have hready := h e he
      rw [Entry.ready, hdue, Bool.or_true] at hready
      cases hready

theorem ready_of_pick {entries : List Entry} {now : UInt32} {e : Entry}
    (h : pick entries now = some e) : e ∈ entries ∧ e.ready now = true := by
  unfold pick at h
  cases hsoon : entries.find? (·.soon) with
  | some first =>
    rw [hsoon] at h
    obtain rfl := Option.some.inj h
    refine ⟨List.mem_of_find?_eq_some hsoon, ?_⟩
    rw [Entry.ready, List.find?_some hsoon, Bool.true_or]
  | none =>
    rw [hsoon] at h
    rcases mem_of_longestOverdue h with hnone | hmem
    · cases hnone
    · obtain ⟨he, hdue⟩ := List.mem_filter.1 hmem
      refine ⟨he, ?_⟩
      rw [Entry.ready, hdue, Bool.or_true]

/-- The entries that are ready when the clock is looked at now. -/
def readyEntries (a : Agenda capacity) (now : UInt32) : List Entry :=
  (a.anchor now).entries.filter (·.ready now)

/-- No chore is to be run exactly if no entry is ready. -/
theorem poll_eq_none_iff {a : Agenda capacity} {now : UInt32} :
    (a.poll now).2 = none ↔ a.readyEntries now = [] := by
  rw [poll, Option.map_eq_none_iff, pick_eq_none_iff, readyEntries, List.filter_eq_nil_iff]
  simp only [Bool.not_eq_true]

/-- The chore to be run is that of a ready entry. -/
theorem ready_of_poll {a : Agenda capacity} {now : UInt32} {token : Token} {chore : Chore}
    (h : (a.poll now).2 = some (token, chore)) :
    ∃ e ∈ a.readyEntries now, e.token = token ∧ e.chore = chore := by
  obtain ⟨e, he, hnamed⟩ := Option.map_eq_some_iff.1 h
  obtain ⟨hmem, hready⟩ := ready_of_pick he
  obtain ⟨rfl, rfl⟩ := Prod.mk.inj hnamed
  exact ⟨e, List.mem_filter.2 ⟨hmem, hready⟩, rfl, rfl⟩

/-! ## What a table keeps -/

/-- The tokens and the chores of a table. -/
def labels (a : Agenda capacity) : List (Token × Chore) := a.entries.map Entry.label

/-- The chores of a table and when they fall due. -/
def dues (a : Agenda capacity) : List (Chore × Due) := a.entries.map fun e => (e.chore, e.due)

@[simp] theorem dues_wantSoon (a : Agenda capacity) (token : Token) :
    (a.wantSoon token).dues = a.dues := by
  show (changeFirst _ _ a.entries).map _ = a.entries.map _
  exact map_changeFirst _ (fun _ => by rfl) _

@[simp] theorem labels_anchor (a : Agenda capacity) (now : UInt32) :
    (a.anchor now).labels = a.labels := by
  rw [labels, anchor, List.map_map]
  rfl

@[simp] theorem labels_wantSoon (a : Agenda capacity) (token : Token) :
    (a.wantSoon token).labels = a.labels := by
  show (changeFirst _ _ a.entries).map Entry.label = a.entries.map Entry.label
  exact map_changeFirst _ (fun _ => by rfl) _

theorem labels_complete_after (a : Agenda capacity) (token : Token) (delay now : UInt32) :
    (a.complete token (.after delay) now).labels = a.labels := by
  show (changeFirst _ _ a.entries).map Entry.label = a.entries.map Entry.label
  exact map_changeFirst _ (fun _ => by rfl) _

/-- A registration while the table is not full. -/
theorem register_of_size_lt {a : Agenda capacity} (h : a.size < capacity) (chore : Chore)
    (delay : UInt32) :
    (a.register chore delay).2 = some a.nextToken ∧
      (a.register chore delay).1.nextToken = a.nextToken + 1 ∧
      (a.register chore delay).1.entries =
        a.entries ++ [⟨a.nextToken, chore, false, .waiting delay⟩] := by
  have hroom : a.entries.length < capacity := h
  unfold register
  rw [dif_pos hroom]
  exact ⟨rfl, rfl, rfl⟩

/-- The end of a run leaves the chores, or removes one. -/
theorem labels_complete_sublist (a : Agenda capacity) (token : Token) (rearm : Rearm)
    (now : UInt32) : (a.complete token rearm now).labels.Sublist a.labels := by
  cases rearm with
  | after delay => rw [labels_complete_after]
  | cancel => exact (List.eraseP_sublist ..).map _

/-! ## The end of a run -/

@[simp] theorem tokens_anchor (a : Agenda capacity) (now : UInt32) :
    (a.anchor now).entries.map Entry.token = a.entries.map Entry.token := by
  rw [anchor, List.map_map]
  rfl

/-- An entry with another token keeps what it is when a run ends. -/
theorem filterMap_settle_of_not_mem {entries : List Entry} {token : Token}
    (h : token ∉ entries.map Entry.token) (rearm : Rearm) (now : UInt32) :
    entries.filterMap (fun e => if e.token = token then e.settle rearm now else some e) =
      entries := by
  have hother : ∀ e ∈ entries,
      (if e.token = token then e.settle rearm now else some e) = some (id e) := by
    rintro e he
    refine if_neg ?_
    rintro rfl
    exact h (List.mem_map_of_mem he)
  rw [List.filterMap_eq_map_iff_forall_eq_some.2 hother, List.map_id]

/-- If no two entries carry one token, the end of a run concerns the entry of its token only. -/
theorem entries_complete {a : Agenda capacity} (hnodup : (a.entries.map Entry.token).Nodup)
    (token : Token) (rearm : Rearm) (now : UInt32) :
    (a.complete token rearm now).entries =
      a.entries.filterMap fun e => if e.token = token then e.settle rearm now else some e := by
  have hentries : (a.complete token rearm now).entries =
      match rearm with
      | .after delay => changeFirst (·.token == token) (·.rearm delay now) a.entries
      | .cancel => a.entries.eraseP (·.token == token) := by
    cases rearm <;> rfl
  rw [hentries]
  generalize a.entries = entries at hnodup
  -- Induction on the entries: behind the entry of the token no other one carries it.
  induction entries with
  | nil => cases rearm <;> rfl
  | cons e rest ih =>
    obtain ⟨hne, hrest⟩ := List.nodup_cons.1 hnodup
    have hrest := ih hrest
    by_cases h : e.token = token
    · subst h
      rw [List.filterMap_cons, if_pos rfl, filterMap_settle_of_not_mem hne]
      cases rearm <;> simp [changeFirst, Entry.settle]
    · rw [List.filterMap_cons, if_neg h, ← hrest]
      cases rearm <;> simp [changeFirst, h]

/-- After a look at the clock no delay waits for one, nor after a run that ended then. -/
theorem entries_anchor_complete {a : Agenda capacity} (hnodup : (a.entries.map Entry.token).Nodup)
    (token : Token) (rearm : Rearm) (now : UInt32) :
    (((a.anchor now).complete token rearm now).anchor now).entries =
      ((a.anchor now).complete token rearm now).entries := by
  have hfixed : ∀ e ∈ ((a.anchor now).complete token rearm now).entries, e.anchor now = id e := by
    rw [← tokens_anchor a now] at hnodup
    rw [entries_complete hnodup]
    intro e he
    obtain ⟨e₀, he₀, hsettle⟩ := List.mem_filterMap.1 he
    split at hsettle
    · exact (Entry.of_settle hsettle).2
    · obtain rfl := Option.some.inj hsettle
      obtain ⟨e₁, -, rfl⟩ := List.mem_map.1 he₀
      rfl
  exact (List.map_congr_left hfixed).trans (List.map_id _)

theorem nodup_tokens_complete {a : Agenda capacity} (hnodup : (a.entries.map Entry.token).Nodup)
    (token : Token) (rearm : Rearm) (now : UInt32) :
    ((a.complete token rearm now).entries.map Entry.token).Nodup := by
  cases rearm with
  | after delay =>
    have htokens : (changeFirst (·.token == token) (·.rearm delay now) a.entries).map Entry.token =
        a.entries.map Entry.token :=
      map_changeFirst _ (fun e => show (e.rearm delay now).token = e.token from rfl) _
    exact htokens ▸ hnodup
  | cancel => exact hnodup.sublist ((List.eraseP_sublist ..).map _)

/-- If the chore that ran rests, the other ready entries are left to be run. -/
theorem readyEntries_complete {a : Agenda capacity} (hnodup : (a.entries.map Entry.token).Nodup)
    (token : Token) {rearm : Rearm} (hrest : rearm.Rests) (now : UInt32) :
    ((a.anchor now).complete token rearm now).readyEntries now =
      (a.readyEntries now).filter (·.token != token) := by
  rw [readyEntries, entries_anchor_complete hnodup, entries_complete (by simpa using hnodup),
    List.filter_filterMap, readyEntries, List.filter_filter, ← List.filterMap_eq_filter]
  refine List.filterMap_congr fun e _ => ?_
  by_cases h : e.token = token
  · subst h
    cases hsettle : e.settle rearm now with
    | none => simp [Option.guard]
    | some e' => simp [Option.guard, Entry.not_ready_of_settle hrest hsettle]
  · simp [h, Option.guard, Option.filter]

/-! ## Drains -/

section

variable {σ : Type} {act : σ → Chore → σ × Rearm} {now : UInt32}

theorem drain_of_poll_none {a : Agenda capacity} (h : (a.poll now).2 = none) (limit : Nat)
    (state : σ) : a.drain act now limit state = ⟨state, a.anchor now, [], true⟩ := by
  have hpoll : a.poll now = (a.anchor now, none) := Prod.ext rfl h
  unfold drain
  rw [hpoll]

theorem drain_zero_of_poll_some {a : Agenda capacity} {due : Token × Chore}
    (h : (a.poll now).2 = some due) (state : σ) :
    a.drain act now 0 state = ⟨state, a.anchor now, [], false⟩ := by
  have hpoll : a.poll now = (a.anchor now, some due) := Prod.ext rfl h
  unfold drain
  rw [hpoll]

theorem drain_succ_of_poll_some {a : Agenda capacity} {token : Token} {chore : Chore}
    (h : (a.poll now).2 = some (token, chore)) (limit : Nat) (state : σ) :
    a.drain act now (limit + 1) state =
      let rest := ((a.anchor now).complete token (act state chore).2 now).drain act now limit
        (act state chore).1
      { rest with runs := ⟨token, chore, (act state chore).2⟩ :: rest.runs } := by
  have hpoll : a.poll now = (a.anchor now, some (token, chore)) := Prod.ext rfl h
  rw [drain, hpoll]

/-- A drain acts on the state with the chores that it ran. -/
theorem state_drain (act : σ → Chore → σ × Rearm) (now : UInt32) (limit : Nat) (state : σ)
    (agenda : Agenda capacity) :
    (agenda.drain act now limit state).state =
      (agenda.drain act now limit state).runs.foldl (fun s run => (act s run.chore).1) state := by
  induction limit generalizing state agenda with
  | zero =>
    unfold drain
    split <;> rfl
  | succ limit ih =>
    unfold drain
    split
    · rfl
    · exact ih _ _

/-- Drains of states that stay related and re-arm alike. -/
theorem drain_of_related {τ : Type} {R : σ → τ → Prop} {other : τ → Chore → τ × Rearm}
    (hact : ∀ {s t}, R s t → ∀ chore,
      R (act s chore).1 (other t chore).1 ∧ (act s chore).2 = (other t chore).2)
    (now : UInt32) (limit : Nat) {s : σ} {t : τ} (h : R s t) (agenda : Agenda capacity) :
    R (agenda.drain act now limit s).state (agenda.drain other now limit t).state ∧
      (agenda.drain act now limit s).agenda = (agenda.drain other now limit t).agenda ∧
      (agenda.drain act now limit s).runs = (agenda.drain other now limit t).runs ∧
      (agenda.drain act now limit s).finished = (agenda.drain other now limit t).finished := by
  -- Induction on the limit: the same chore is due in both, and runs again at the same time.
  induction limit generalizing s t agenda with
  | zero =>
    unfold drain
    rcases agenda.poll now with ⟨polled, _ | ⟨token, chore⟩⟩ <;> exact ⟨h, rfl, rfl, rfl⟩
  | succ limit ih =>
    unfold drain
    rcases agenda.poll now with ⟨polled, _ | ⟨token, chore⟩⟩
    · exact ⟨h, rfl, rfl, rfl⟩
    · obtain ⟨hstate, hrearm⟩ := hact h chore
      dsimp only
      rw [← hrearm]
      obtain ⟨hs, ha, hr, hf⟩ := ih hstate (polled.complete token (act s chore).2 now)
      exact ⟨hs, ha, congrArg _ hr, hf⟩

/-- What a look at the clock and every run keep is kept by a drain. -/
theorem holds_of_drain {P : σ → Agenda capacity → Prop}
    (hanchor : ∀ {s a}, P s a → P s (a.anchor now))
    (hrun : ∀ {s a}, P s a → ∀ token chore,
      P (act s chore).1 (a.complete token (act s chore).2 now)) (limit : Nat) {state : σ}
    {a : Agenda capacity} (h : P state a) :
    P (a.drain act now limit state).state (a.drain act now limit state).agenda := by
  induction limit generalizing state a with
  | zero =>
    cases hpoll : (a.poll now).2 with
    | none =>
      rw [drain_of_poll_none hpoll]
      exact hanchor h
    | some due =>
      rw [drain_zero_of_poll_some hpoll]
      exact hanchor h
  | succ limit ih =>
    rcases hpoll : (a.poll now).2 with _ | ⟨token, chore⟩
    · rw [drain_of_poll_none hpoll]
      exact hanchor h
    · rw [drain_succ_of_poll_some hpoll]
      exact ih (hrun (hanchor h) token chore)

/-- What holds of every re-arming of states that are kept holds of the runs of a drain. -/
theorem forall_mem_runs_drain {P : σ → Prop} {Q : Chore → Rearm → Prop}
    (hact : ∀ {s}, P s → ∀ chore, P (act s chore).1 ∧ Q chore (act s chore).2) (limit : Nat)
    {state : σ} (hstate : P state) (a : Agenda capacity) :
    ∀ run ∈ (a.drain act now limit state).runs, Q run.chore run.rearm := by
  induction limit generalizing state a with
  | zero =>
    cases h : (a.poll now).2 with
    | none =>
      rw [drain_of_poll_none h]
      exact nofun
    | some due =>
      rw [drain_zero_of_poll_some h]
      exact nofun
  | succ limit ih =>
    rcases h : (a.poll now).2 with _ | ⟨token, chore⟩
    · rw [drain_of_poll_none h]
      exact nofun
    · rw [drain_succ_of_poll_some h]
      obtain ⟨hnext, hrearm⟩ := hact hstate chore
      intro run hrun
      rcases List.mem_cons.1 hrun with rfl | hrun
      · exact hrearm
      · exact ih hnext ((a.anchor now).complete token (act state chore).2 now) run hrun

/-- A drain that came to its end would not go on if it were allowed more runs. -/
theorem drain_eq_of_finished {limit more : Nat} {state : σ} {a : Agenda capacity}
    (h : (a.drain act now limit state).finished = true) (hle : limit ≤ more) :
    a.drain act now more state = a.drain act now limit state := by
  induction limit generalizing more state a with
  | zero =>
    cases hpoll : (a.poll now).2 with
    | none => rw [drain_of_poll_none hpoll, drain_of_poll_none hpoll]
    | some due =>
      rw [drain_zero_of_poll_some hpoll] at h
      cases h
  | succ limit ih =>
    rcases hpoll : (a.poll now).2 with _ | ⟨token, chore⟩
    · rw [drain_of_poll_none hpoll, drain_of_poll_none hpoll]
    · obtain ⟨more, rfl⟩ := Nat.exists_eq_add_of_le' hle
      rw [drain_succ_of_poll_some hpoll] at h
      rw [← Nat.add_assoc, drain_succ_of_poll_some hpoll, drain_succ_of_poll_some hpoll,
        ih h (Nat.le_add_left limit more)]

/-- A ready entry and the other ones are the ready entries. -/
theorem perm_readyEntries {a : Agenda capacity} (hnodup : (a.entries.map Entry.token).Nodup)
    {e : Entry} (he : e ∈ a.readyEntries now) :
    (e :: (a.readyEntries now).filter (·.token != e.token)).Perm (a.readyEntries now) := by
  have htokens : ((a.readyEntries now).map Entry.token).Nodup := by
    rw [← tokens_anchor a now] at hnodup
    exact hnodup.sublist (List.filter_sublist.map _)
  have hother : (a.readyEntries now).filter (·.token != e.token) =
      (a.readyEntries now).erase e := by
    rw [(List.Nodup.of_map _ htokens).erase_eq_filter]
    refine List.filter_congr fun x hx => ?_
    have heq : x.token = e.token ↔ x = e :=
      ⟨fun h => List.inj_on_of_nodup_map htokens hx he h, fun h => h ▸ rfl⟩
    rw [Bool.eq_iff_iff, bne_iff_ne, bne_iff_ne, ne_eq, heq]
  rw [hother]
  exact (List.perm_cons_erase he).symm

/-- **A drain of chores that rest.** If no two entries carry one token and every chore rests after
its run, a drain comes to its end, and runs each entry that was ready once and no other. A chore
that ran is re-armed or removed, and every other entry stays as it is. -/
theorem drain_of_rests {P : σ → Prop}
    (hact : ∀ {s}, P s → ∀ chore, P (act s chore).1 ∧ (act s chore).2.Rests) {limit : Nat}
    {state : σ} (hstate : P state) {a : Agenda capacity}
    (hnodup : (a.entries.map Entry.token).Nodup) (hlimit : (a.readyEntries now).length ≤ limit) :
    (a.drain act now limit state).finished = true ∧
      ((a.drain act now limit state).runs.map ChoreRun.label).Perm
        ((a.readyEntries now).map Entry.label) ∧
      (a.drain act now limit state).agenda.entries =
        (a.anchor now).entries.filterMap
          (Entry.outcome (a.drain act now limit state).runs now) := by
  -- Induction on the limit, which bounds the entries that are ready: a run leaves one less.
  induction limit generalizing state a with
  | zero =>
    have hnone : (a.poll now).2 = none :=
      poll_eq_none_iff.2 (List.eq_nil_of_length_eq_zero (Nat.le_zero.1 hlimit))
    rw [drain_of_poll_none hnone, poll_eq_none_iff.1 hnone]
    exact ⟨rfl, .refl _, List.filterMap_some.symm⟩
  | succ limit ih =>
    rcases hpoll : (a.poll now).2 with _ | ⟨token, chore⟩
    · rw [drain_of_poll_none hpoll, poll_eq_none_iff.1 hpoll]
      exact ⟨rfl, .refl _, List.filterMap_some.symm⟩
    · obtain ⟨e, he, rfl, rfl⟩ := ready_of_poll hpoll
      obtain ⟨hnext, hrest⟩ := hact hstate e.chore
      have hperm := perm_readyEntries hnodup he
      have hready := readyEntries_complete hnodup e.token hrest now
      -- the agenda after the run of `e`
      have hnodup' := nodup_tokens_complete (a := a.anchor now) (by rwa [tokens_anchor]) e.token
        (act state e.chore).2 now
      have hlimit' : (((a.anchor now).complete e.token (act state e.chore).2 now).readyEntries
          now).length ≤ limit := by
        have hlength := hperm.length_eq
        rw [List.length_cons] at hlength
        rw [hready]
        omega
      obtain ⟨hfinished, hruns, hentries⟩ := ih hnext hnodup' hlimit'
      rw [drain_succ_of_poll_some hpoll]
      dsimp only
      generalize ((a.anchor now).complete e.token (act state e.chore).2 now).drain act now limit
        (act state e.chore).1 = rest at hfinished hruns hentries ⊢
      rw [hready] at hruns
      refine ⟨hfinished, ?_, ?_⟩
      · exact (hruns.cons e.label).trans (hperm.map Entry.label)
      · -- the chore that ran is not run again
        have hnot : ∀ run ∈ rest.runs, run.token ≠ e.token := by
          intro run hrun heq
          obtain ⟨x, hx, hsame⟩ := List.mem_map.1 (hruns.mem_iff.1 (List.mem_map_of_mem hrun))
          have hne := bne_iff_ne.1 (List.mem_filter.1 hx).2
          exact hne ((Prod.mk.inj hsame).1.trans heq)
        rw [hentries, entries_anchor_complete hnodup, entries_complete (by rwa [tokens_anchor])]
        exact Entry.filterMap_outcome_cons ⟨e.token, e.chore, (act state e.chore).2⟩ hnot
          (a.anchor now).entries now

/-- An entry that ran is re-armed or removed as its chore answered, and one that did not stays. -/
theorem outcome_of_perm {entries : List Entry} (hnodup : (entries.map Entry.token).Nodup)
    {runs : List ChoreRun}
    (hruns : (runs.map ChoreRun.label).Perm ((entries.filter (·.ready now)).map Entry.label))
    {e : Entry} (he : e ∈ entries) :
    if e.ready now then
      ∃ run ∈ runs, run.label = e.label ∧ e.outcome runs now = e.settle run.rearm now
    else e.outcome runs now = some e := by
  -- a run with the token of the entry is that of the entry
  have hown : ∀ run ∈ runs, run.token = e.token → e.ready now = true ∧ run.label = e.label := by
    intro run hrun htoken
    obtain ⟨x, hx, hlabel⟩ := List.mem_map.1 (hruns.mem_iff.1 (List.mem_map_of_mem hrun))
    obtain ⟨hxmem, hxready⟩ := List.mem_filter.1 hx
    obtain rfl := List.inj_on_of_nodup_map hnodup hxmem he ((Prod.mk.inj hlabel).1.trans htoken)
    exact ⟨hxready, hlabel.symm⟩
  split
  case isTrue hready =>
    obtain ⟨ran, hran, hsame⟩ := List.mem_map.1
      (hruns.mem_iff.2 (List.mem_map_of_mem (List.mem_filter.2 ⟨he, hready⟩)))
    obtain ⟨run, hfind⟩ : ∃ run, runs.find? (·.token == e.token) = some run :=
      Option.isSome_iff_exists.1
        (List.find?_isSome.2 ⟨ran, hran, beq_iff_eq.2 (Prod.mk.inj hsame).1⟩)
    have hmem := List.mem_of_find?_eq_some hfind
    refine ⟨run, hmem, (hown run hmem (by simpa using List.find?_some hfind)).2, ?_⟩
    rw [Entry.outcome, hfind]
  case isFalse hnot =>
    exact Entry.outcome_of_forall_ne fun run hrun heq => hnot (hown run hrun heq).1

/-- If a chore's delay depends on nothing but the chore, a drain re-arms every entry that was ready
with the delay of its chore, and leaves the other ones. -/
theorem entries_drain_of_rearm {P : σ → Prop} {rearm : Chore → Rearm}
    (hact : ∀ {s}, P s → ∀ chore, P (act s chore).1 ∧ (act s chore).2 = rearm chore)
    (hrests : ∀ chore, (rearm chore).Rests) {limit : Nat} {state : σ} (hstate : P state)
    {a : Agenda capacity} (hnodup : (a.entries.map Entry.token).Nodup)
    (hlimit : (a.readyEntries now).length ≤ limit) :
    (a.drain act now limit state).agenda.entries =
      (a.anchor now).entries.filterMap fun e =>
        if e.ready now then e.settle (rearm e.chore) now else some e := by
  have hruns : ∀ run ∈ (a.drain act now limit state).runs, run.rearm = rearm run.chore :=
    forall_mem_runs_drain (Q := fun chore r => r = rearm chore) hact limit hstate a
  have hrest : ∀ {s}, P s → ∀ chore, P (act s chore).1 ∧ (act s chore).2.Rests :=
    fun hs chore => ⟨(hact hs chore).1, (hact hs chore).2 ▸ hrests chore⟩
  obtain ⟨-, hperm, hentries⟩ := drain_of_rests hrest hstate hnodup hlimit
  rw [hentries]
  generalize (a.drain act now limit state).runs = runs at hruns hperm
  rw [← tokens_anchor a now] at hnodup
  refine List.filterMap_congr fun e he => ?_
  have houtcome := outcome_of_perm hnodup hperm he
  by_cases hready : e.ready now = true
  · rw [if_pos hready] at houtcome ⊢
    obtain ⟨run, hrun, hlabel, hsettle⟩ := houtcome
    rw [hsettle, hruns run hrun, (Prod.mk.inj hlabel).2]
  · rw [if_neg hready] at houtcome ⊢
    exact houtcome

/-- Whether a chore's time is reached when the clock is looked at now. -/
def HasDue (a : Agenda capacity) (chore : Chore) (now : UInt32) : Prop :=
  ∃ e ∈ (a.anchor now).entries, e.chore = chore ∧ e.isDue now = true

theorem HasDue.poll_ne_none {a : Agenda capacity} {chore : Chore} (h : a.HasDue chore now) :
    (a.poll now).2 ≠ none := by
  obtain ⟨e, he, -, hdue⟩ := h
  intro hnone
  have hready : e ∈ a.readyEntries now :=
    List.mem_filter.2 ⟨he, by rw [Entry.ready, hdue, Bool.or_true]⟩
  rw [poll_eq_none_iff.1 hnone] at hready
  cases hready

/-- A chore that is due is due after a run, unless it was its own and it rests. -/
theorem HasDue.complete {a : Agenda capacity} {chore : Chore} (h : a.HasDue chore now)
    (hnodup : (a.entries.map Entry.token).Nodup) {token : Token} {ran : Chore}
    (hpoll : (a.poll now).2 = some (token, ran)) {rearm : Rearm}
    (hrestless : ran = chore → ¬rearm.Rests) :
    ((a.anchor now).complete token rearm now).HasDue chore now := by
  obtain ⟨e, he, rfl, hdue⟩ := h
  obtain ⟨p, hp, rfl, rfl⟩ := ready_of_poll hpoll
  unfold HasDue
  rw [entries_anchor_complete hnodup, entries_complete (by rwa [tokens_anchor])]
  by_cases heq : e.token = p.token
  · -- the run was that of the entry itself
    rw [← tokens_anchor a now] at hnodup
    obtain rfl := List.inj_on_of_nodup_map hnodup he (List.mem_filter.1 hp).1 heq
    cases rearm with
    | cancel => exact absurd trivial (hrestless rfl)
    | after delay =>
      refine ⟨e.rearm delay now, List.mem_filterMap.2 ⟨e, he, if_pos rfl⟩, rfl, ?_⟩
      exact (e.isDue_rearm_iff delay now).2 (hrestless rfl)
  · exact ⟨e, List.mem_filterMap.2 ⟨e, he, if_neg heq⟩, rfl, hdue⟩

/-- **A drain that never ends.** If a chore is due that does not rest after its runs, and no two
entries carry one token, a drain does not come to its end, however many runs it may make. -/
theorem finished_drain_of_restless {P : σ → Prop} (hact : ∀ {s}, P s → ∀ chore, P (act s chore).1)
    {chore : Chore} (hrestless : ∀ {s}, P s → ¬(act s chore).2.Rests) (limit : Nat) {state : σ}
    (hstate : P state) {a : Agenda capacity} (hnodup : (a.entries.map Entry.token).Nodup)
    (hdue : a.HasDue chore now) : (a.drain act now limit state).finished = false := by
  -- Induction on the limit: the chore is due again, whether it ran or another one did.
  induction limit generalizing state a with
  | zero =>
    obtain ⟨due, hpoll⟩ := Option.ne_none_iff_exists'.1 hdue.poll_ne_none
    rw [drain_zero_of_poll_some hpoll]
  | succ limit ih =>
    obtain ⟨⟨token, ran⟩, hpoll⟩ := Option.ne_none_iff_exists'.1 hdue.poll_ne_none
    have hdue' : ((a.anchor now).complete token (act state ran).2 now).HasDue chore now :=
      hdue.complete hnodup hpoll fun h => h ▸ hrestless hstate
    have hnodup' := nodup_tokens_complete (a := a.anchor now) (by rwa [tokens_anchor]) token
      (act state ran).2 now
    rw [drain_succ_of_poll_some hpoll]
    exact ih (hact hstate ran) hnodup' hdue'

end

end Agenda

end StatusPanel
