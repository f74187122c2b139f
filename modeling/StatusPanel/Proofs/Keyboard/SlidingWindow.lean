import Mathlib.Algebra.BigOperators.Intervals
import Mathlib.Algebra.Order.BigOperators.Group.Finset
import Mathlib.Data.Nat.Cast.Basic
import StatusPanel.Keyboard.Typing

/-!
# The window of a typing speed meter

The ring of buckets remembers the latest periods and no others. Counted backwards from the open
period, its buckets hold the keystrokes of the open period, of the one closed last, and so on, each
up to 255; so the speed is that of a window which slides over all periods since the start.

## Main definitions

* `MeterCall`, `SpeedMeter.after`: what is done with a meter
* `Tally`, `tally`: the keystrokes of every period
* `windowTotal`: the keystrokes that count in a window
* `SpeedMeter.Follows`: the ring against the tally

## Main results

* `SpeedMeter.Follows.perform`, `SpeedMeter.follows_after`: a call keeps the ring, and so do all
* `SpeedMeter.wpm_eq_window`: the speed is that of the latest periods
-/

namespace StatusPanel

/-! ## Calls and what they say -/

/-- What is done with a meter. -/
inductive MeterCall
  /-- Some keystrokes are counted. -/
  | keystrokes (count : UInt32)
  /-- One keystroke is counted. -/
  | keystroke
  /-- The open period is closed. -/
  | close
  deriving DecidableEq, Repr

namespace MeterCall

/-- The keystrokes that a call counts. -/
def count : MeterCall → Nat
  | .keystrokes count => count.toNat
  | .keystroke => 1
  | .close => 0

end MeterCall

/-- The keystrokes of every period, without bounds. -/
structure Tally where
  /-- The keystrokes of the open period. -/
  pending : Nat := 0
  /-- Those of the closed periods, the one closed last at the head. -/
  closed : List Nat := []

namespace Tally

/-- The tally after one call more. -/
def add (t : Tally) : MeterCall → Tally
  | .close => ⟨0, t.pending :: t.closed⟩
  | call => { t with pending := t.pending + call.count }

/-- The keystrokes of all periods, the open one at the head. -/
def periods (t : Tally) : List Nat := t.pending :: t.closed

end Tally

/-- The tally of calls. -/
def tally (calls : List MeterCall) : Tally := calls.foldl Tally.add {}

/-- The keystrokes of the periods closed last; a period counts up to 255. -/
def windowTotal (window : Nat) (closed : List Nat) : Nat :=
  ((closed.take window).map (min 255)).sum

/-- The sum over a prefix of a list, by places; what is not there counts nothing. -/
theorem sum_map_take {α : Type} {f : α → Nat} {none : α} (hnone : f none = 0) (n : Nat)
    (s : List α) : ((s.take n).map f).sum = ∑ i ∈ Finset.range n, f (s.getD i none) := by
  induction n generalizing s with
  | zero => rfl
  | succ n ih =>
    rw [Finset.sum_range_succ']
    cases s with
    | nil => simp [hnone]
    | cons a s =>
      rw [List.take_succ_cons, List.map_cons, List.sum_cons, ih s, Nat.add_comm]
      rfl

theorem windowTotal_replicate_append {window quiet : Nat} (h : window ≤ quiet)
    (closed : List Nat) : windowTotal window (List.replicate quiet 0 ++ closed) = 0 := by
  rw [windowTotal, List.take_append_of_le_length (by simpa using h), List.take_replicate]
  simp

/-- Right behind a close the open period is empty, as it is at the start. -/
theorem pending_tally {calls : List MeterCall}
    (h : calls = [] ∨ calls.getLast? = some .close) : (tally calls).pending = 0 := by
  obtain rfl | hlast := h
  · rfl
  · obtain ⟨earlier, rfl⟩ := List.getLast?_eq_some_iff.1 hlast
    rw [tally, List.foldl_append]
    rfl

/-- Calls that count nothing close empty periods. -/
theorem foldl_add_of_quiet {t : Tally} (ht : t.pending = 0) {calls : List MeterCall}
    (h : ∀ call ∈ calls, call.count = 0) :
    calls.foldl Tally.add t =
      ⟨0, List.replicate (calls.count .close) 0 ++ t.closed⟩ := by
  induction calls generalizing t with
  | nil =>
    obtain ⟨pending, closed⟩ := t
    obtain rfl : pending = 0 := ht
    rfl
  | cons call calls ih =>
    obtain ⟨hcall, hcalls⟩ := List.forall_mem_cons.1 h
    have hpending : (t.add call).pending = 0 := by
      cases call <;> simp_all [Tally.add]
    rw [List.foldl_cons, ih hpending hcalls]
    cases call with
    | close =>
      have hreplicate : List.replicate (calls.count .close) 0 ++ t.pending :: t.closed =
          List.replicate (calls.count .close + 1) 0 ++ t.closed := by
        rw [ht, List.replicate_succ', List.append_assoc]
        rfl
      rw [List.count_cons_self, ← hreplicate]
      rfl
    | keystrokes count =>
      have hne : MeterCall.keystrokes count ≠ .close := nofun
      rw [List.count_cons_of_ne hne]
      rfl
    | keystroke =>
      have hne : MeterCall.keystroke ≠ .close := nofun
      rw [List.count_cons_of_ne hne]
      rfl

/-- After a window of empty periods nothing counts in it. -/
theorem windowTotal_tally_of_quiet {window : Nat} {earlier quiet : List MeterCall}
    (hclosed : earlier = [] ∨ earlier.getLast? = some .close)
    (hquiet : ∀ call ∈ quiet, call.count = 0) (hpassed : window ≤ quiet.count .close) :
    windowTotal window (tally (earlier ++ quiet)).closed = 0 := by
  have htally : tally (earlier ++ quiet) =
      ⟨0, List.replicate (quiet.count .close) 0 ++ (tally earlier).closed⟩ := by
    rw [tally, List.foldl_append]
    exact foldl_add_of_quiet (pending_tally hclosed) hquiet
  rw [htally]
  exact windowTotal_replicate_append hpassed _

/-! ## The ring -/

namespace SpeedMeter

/-- The meter after a call. -/
def perform (m : SpeedMeter) : MeterCall → SpeedMeter
  | .keystrokes count => m.record count.toNat
  | .keystroke => m.record 1
  | .close => m.advance

/-- The meter after calls, in their order. -/
def after (m : SpeedMeter) (calls : List MeterCall) : SpeedMeter := calls.foldl perform m

/-- The count at a place of the ring. -/
def bucket (m : SpeedMeter) (place : Nat) : Nat := (m.buckets.toList.getD place 0).toNat

/-- The place of the period that many periods before the open one. -/
def back (m : SpeedMeter) (age : Nat) : Nat :=
  if age ≤ m.current then m.current - age else m.current + m.periods - age

variable (m : SpeedMeter)

theorem toNat_addCount (a : UInt8) (count : Nat) :
    (addCount a count).toNat = min 255 (a.toNat + count) := by
  have ha := a.toNat_lt
  rw [addCount, UInt8.toNat_ofNat', Nat.mod_eq_of_lt (by omega)]
  omega

theorem bucket_record (count place : Nat) :
    (m.record count).bucket place =
      if place = m.current then min 255 (m.bucket place + count) else m.bucket place := by
  have hlt : m.current < maxPeriods := Nat.lt_of_lt_of_le m.current_lt m.periods_le
  split
  case isTrue h =>
    subst h
    simp [bucket, record, hlt, toNat_addCount]
  case isFalse h => simp [bucket, record, Vector.getElem?_set_ne, Ne.symm h]

theorem bucket_advance (place : Nat) :
    m.advance.bucket place = if place = m.advance.current then 0 else m.bucket place := by
  have hlt : m.advance.current < maxPeriods :=
    Nat.lt_of_lt_of_le m.advance.current_lt m.advance.periods_le
  split
  case isTrue h =>
    subst h
    simp only [advance] at hlt ⊢
    simp [bucket, hlt]
  case isFalse h =>
    simp only [advance] at h ⊢
    simp [bucket, Vector.getElem?_set_ne, Ne.symm h]

theorem current_advance :
    m.advance.current = if m.current + 1 = m.periods then 0 else m.current + 1 := by
  have hlt := m.current_lt
  show (m.current + 1) % m.periods = _
  split
  case isTrue h => rw [h, Nat.mod_self]
  case isFalse h => exact Nat.mod_eq_of_lt (by omega)

variable {m}

theorem back_zero : m.back 0 = m.current := rfl

theorem back_lt {age : Nat} (h : age < m.periods) : m.back age < m.periods := by
  have hlt := m.current_lt
  unfold back
  split <;> omega

theorem back_back {age : Nat} (h : age < m.periods) : m.back (m.back age) = age := by
  have hlt := m.current_lt
  unfold back
  split <;> split <;> omega

theorem back_eq_current_iff {age : Nat} (h : age < m.periods) :
    m.back age = m.current ↔ age = 0 := by
  have hlt := m.current_lt
  unfold back
  split <;> omega

/-- Closing a period makes every period one older. -/
theorem back_advance {age : Nat} (h : age + 1 < m.periods) :
    m.advance.back (age + 1) = m.back age := by
  have hlt := m.current_lt
  rw [back, back, current_advance, periods_advance]
  split <;> split <;> split <;> omega

variable (m)

theorem total_eq_sum : m.total = ∑ place ∈ Finset.range m.periods, m.bucket place := by
  refine Eq.trans ?_ (sum_map_take (show UInt8.toNat 0 = 0 from rfl) _ _)
  rw [total]
  generalize m.buckets.toList.take m.periods = counts
  induction counts with
  | nil => rfl
  | cons count counts ih => rw [List.foldr_cons, ih, List.map_cons, List.sum_cons]

/-- The ring may be summed up backwards from the open period. -/
theorem total_eq_sum_back : m.total = ∑ age ∈ Finset.range m.periods, m.bucket (m.back age) := by
  rw [total_eq_sum]
  refine Finset.sum_nbij' m.back m.back ?_ ?_ ?_ ?_ ?_
  · exact fun place h => Finset.mem_range.2 (back_lt (Finset.mem_range.1 h))
  · exact fun age h => Finset.mem_range.2 (back_lt (Finset.mem_range.1 h))
  · exact fun place h => back_back (Finset.mem_range.1 h)
  · exact fun age h => back_back (Finset.mem_range.1 h)
  · exact fun place h => by rw [back_back (Finset.mem_range.1 h)]

/-- The total of a window fits a machine word, and so does a minute's worth of it. -/
theorem total_le : m.total ≤ 64 * 255 := by
  have hle : m.periods ≤ 64 := m.periods_le
  have hbucket : ∀ place ∈ Finset.range m.periods, m.bucket place ≤ 255 := fun place _ =>
    Nat.le_of_lt_succ (UInt8.toNat_lt _)
  calc m.total = ∑ place ∈ Finset.range m.periods, m.bucket place := m.total_eq_sum
    _ ≤ m.periods * 255 := by simpa using Finset.sum_le_card_nsmul _ _ _ hbucket
    _ ≤ 64 * 255 := Nat.mul_le_mul_right _ hle

theorem toNat_estimate (total seconds : Nat) :
    (estimate total seconds).toNat = min 65535 (60 * total / (5 * seconds)) := by
  rw [estimate, UInt16.toNat_ofNat', charsPerWord, Nat.mod_eq_of_lt (by omega), Nat.mul_comm total,
    Nat.mul_comm seconds, Nat.min_comm]

/-! ## The ring against the tally -/

variable {m} {t : Tally}

/-- Whether a meter agrees with a tally: backwards from the open place its ring holds the latest
periods, and its speed is that of the closed ones. -/
structure Follows (m : SpeedMeter) (t : Tally) : Prop where
  bucket_back : ∀ age < m.periods, m.bucket (m.back age) = min 255 (t.periods.getD age 0)
  wpm_eq : m.wpm = estimate (windowTotal m.periods t.closed) m.sampleSeconds

theorem follows_start (sampleSeconds : UInt16) (samplePeriods : UInt8) :
    (start sampleSeconds samplePeriods).Follows {} where
  bucket_back age _ := by
    have hbucket : ∀ place, (start sampleSeconds samplePeriods).bucket place = 0 := by
      intro place
      by_cases hplace : place < maxPeriods <;> simp [bucket, start, hplace]
    have hperiods : (Tally.periods {}).getD age 0 = 0 := by cases age <;> rfl
    rw [hbucket, hperiods]
    rfl
  wpm_eq := by simp [windowTotal, estimate, start]

namespace Follows

/-- The ring's total is that of the window that ends with the open period. -/
theorem total_eq (h : m.Follows t) : m.total = windowTotal m.periods t.periods := by
  calc m.total = ∑ age ∈ Finset.range m.periods, m.bucket (m.back age) := m.total_eq_sum_back
    _ = ∑ age ∈ Finset.range m.periods, min 255 (t.periods.getD age 0) :=
      Finset.sum_congr rfl fun age hage => h.bucket_back age (Finset.mem_range.1 hage)
    _ = windowTotal m.periods t.periods :=
      (sum_map_take (show min 255 0 = 0 from rfl) _ _).symm

theorem toNat_wpm (h : m.Follows t) :
    m.wpm.toNat = min 65535 (60 * windowTotal m.periods t.closed / (5 * m.sampleSeconds)) := by
  rw [h.wpm_eq, toNat_estimate]

theorem wpm_eq_zero (h : m.Follows t) (htotal : windowTotal m.periods t.closed = 0) :
    m.wpm = 0 := by
  rw [h.wpm_eq, htotal, estimate, Nat.zero_mul, Nat.zero_div]
  rfl

theorem record (h : m.Follows t) (count : Nat) :
    (m.record count).Follows { t with pending := t.pending + count } where
  bucket_back age hage := by
    have hback : (m.record count).back age = m.back age := rfl
    rw [periods_record] at hage
    rw [hback, bucket_record, h.bucket_back age hage]
    cases age with
    | zero =>
      rw [back_zero, if_pos rfl]
      show min 255 (min 255 t.pending + count) = min 255 (t.pending + count)
      omega
    | succ age =>
      rw [if_neg fun heq => Nat.succ_ne_zero age ((back_eq_current_iff hage).1 heq)]
      rfl
  wpm_eq := h.wpm_eq

theorem advance (h : m.Follows t) : m.advance.Follows ⟨0, t.periods⟩ where
  bucket_back age hage := by
    have hcurrent := back_eq_current_iff hage
    rw [bucket_advance]
    cases age with
    | zero =>
      rw [if_pos back_zero]
      rfl
    | succ age =>
      rw [if_neg fun heq => Nat.succ_ne_zero age (hcurrent.1 heq)]
      rw [periods_advance] at hage
      rw [back_advance hage, h.bucket_back age (Nat.lt_of_succ_lt hage)]
      rfl
  wpm_eq := by
    rw [wpm_advance, h.total_eq]
    rfl

/-- **A call** keeps the ring in agreement with the tally. -/
theorem perform (h : m.Follows t) (call : MeterCall) : (m.perform call).Follows (t.add call) := by
  cases call with
  | keystrokes count => exact h.record count.toNat
  | keystroke => exact h.record 1
  | close => exact h.advance

end Follows

/-- **All calls** since the start keep the ring in agreement with their tally. -/
theorem follows_after (sampleSeconds : UInt16) (samplePeriods : UInt8) (calls : List MeterCall) :
    ((start sampleSeconds samplePeriods).after calls).Follows (tally calls) := by
  have hall {m : SpeedMeter} {t : Tally} (h : m.Follows t) :
      (m.after calls).Follows (calls.foldl Tally.add t) := by
    induction calls generalizing m t with
    | nil => exact h
    | cons call calls ih => exact ih (h.perform call)
  exact hall (follows_start sampleSeconds samplePeriods)

/-- Calls change neither the number of periods nor the length of the window. -/
theorem fixed_after (m : SpeedMeter) (calls : List MeterCall) :
    (m.after calls).periods = m.periods ∧ (m.after calls).sampleSeconds = m.sampleSeconds := by
  induction calls generalizing m with
  | nil => exact ⟨rfl, rfl⟩
  | cons call calls ih =>
    obtain ⟨hperiods, hseconds⟩ := ih (m.perform call)
    have hcall : (m.perform call).periods = m.periods ∧
        (m.perform call).sampleSeconds = m.sampleSeconds := by
      cases call <;> exact ⟨rfl, rfl⟩
    exact ⟨hperiods.trans hcall.1, hseconds.trans hcall.2⟩

/-- **The speed is that of a sliding window.** After any calls it is computed from the periods
closed last, as many as the window has, each up to 255 keystrokes; closing the open period makes it
the first of them. When no key was pressed since a period was closed and the window has passed, the
speed is zero. The sums fit words of 32 bits, and the open place lies in the ring. -/
theorem wpm_eq_window (sampleSeconds : UInt16) (samplePeriods : UInt8) (calls : List MeterCall) :
    let window := min (max samplePeriods.toNat 1) 64
    let seconds := max sampleSeconds.toNat 1
    let m := (start sampleSeconds samplePeriods).after calls
    let t := tally calls
    (m.wpm.toNat = min 65535 (60 * windowTotal window t.closed / (5 * seconds)) ∧
        m.advance.wpm.toNat =
          min 65535 (60 * windowTotal window (t.pending :: t.closed) / (5 * seconds))) ∧
      (∀ earlier quiet, calls = earlier ++ quiet →
        (earlier = [] ∨ earlier.getLast? = some .close) → (∀ call ∈ quiet, call.count = 0) →
          window ≤ quiet.count .close → m.wpm = 0) ∧
      (m.total * 60 < 2 ^ 32 ∧ m.sampleSeconds * charsPerWord < 2 ^ 32) ∧
      m.current < m.periods ∧ m.periods ≤ maxPeriods := by
  intro window seconds m t
  have hfollows : m.Follows t := follows_after sampleSeconds samplePeriods calls
  obtain ⟨hperiods, hseconds⟩ :
      m.periods = window ∧ m.sampleSeconds = seconds := fixed_after _ calls
  rw [← hperiods, ← hseconds]
  refine ⟨⟨hfollows.toNat_wpm, hfollows.advance.toNat_wpm⟩, ?_, ⟨?_, ?_⟩, m.current_lt,
    m.periods_le⟩
  · intro earlier quiet hcalls hclosed hcount hpassed
    refine hfollows.wpm_eq_zero ?_
    show windowTotal m.periods (tally calls).closed = 0
    rw [hcalls]
    exact windowTotal_tally_of_quiet hclosed hcount hpassed
  · have htotal := m.total_le
    omega
  · have hsample : seconds ≤ 65535 :=
      Nat.max_le.2 ⟨Nat.le_of_lt_succ sampleSeconds.toNat_lt, by decide⟩
    rw [hseconds, charsPerWord]
    omega

/-- Two periods of half a second: 300 keystrokes count as 255, and none is left two periods after
the last. -/
theorem wpm_burst :
    let burst := [.keystrokes 200, .keystrokes 100, .close, .keystroke, .close]
    let quiet := [.close, .keystrokes 0, .close]
    ((start 1 2).after burst).wpm = 3072 ∧
      (∀ call ∈ quiet, call.count = 0) ∧ min (max (2 : UInt8).toNat 1) 64 ≤ quiet.count .close ∧
      ((start 1 2).after (burst ++ quiet)).wpm = 0 := by
  intro burst quiet
  obtain ⟨⟨hspeed, -⟩, -⟩ := wpm_eq_window 1 2 burst
  obtain ⟨-, hquiet, -⟩ := wpm_eq_window 1 2 (burst ++ quiet)
  have hcount : ∀ call ∈ quiet, call.count = 0 := by decide
  have hpassed : min (max (2 : UInt8).toNat 1) 64 ≤ quiet.count .close := by decide
  exact ⟨UInt16.toNat_inj.1 (hspeed.trans (by decide)), hcount, hpassed,
    hquiet burst quiet rfl (Or.inr rfl) hcount hpassed⟩

end SpeedMeter

end StatusPanel
