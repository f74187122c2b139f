/-!
# Typing speed

Keystrokes are counted in a ring of sample periods that covers a fixed window of time. Closing a
period estimates the speed from the window's total and opens the next period, whose old count is
forgotten.

## Main definitions

* `SpeedMeter`: the ring and the last estimate
* `SpeedMeter.record`: counts keystrokes in the open period
* `SpeedMeter.advance`: closes the open period
-/

namespace StatusPanel

/-- The number of characters in a word, by convention. -/
def charsPerWord : Nat := 5

/-- The most periods a window can have. -/
def maxPeriods : Nat := 64

/-- A typing speed meter. -/
structure SpeedMeter where
  /-- The keystrokes of each period; a count stays at 255. -/
  buckets : Vector UInt8 maxPeriods
  /-- The number of periods in use. -/
  periods : Nat
  /-- The open period. -/
  current : Nat
  /-- The length of the window. -/
  sampleSeconds : Nat
  /-- The speed at the last close of a period, in words per minute. -/
  wpm : UInt16
  periods_le : periods ≤ maxPeriods
  current_lt : current < periods
  sampleSeconds_pos : 0 < sampleSeconds

namespace SpeedMeter

theorem periods_pos (m : SpeedMeter) : 0 < m.periods :=
  Nat.lt_of_le_of_lt (Nat.zero_le _) m.current_lt

/-- An idle meter. The number of periods is brought into `1 … 64`, the window to one second at
least. -/
def start (sampleSeconds : UInt16) (samplePeriods : UInt8) : SpeedMeter where
  buckets := Vector.replicate maxPeriods 0
  periods := min (max samplePeriods.toNat 1) maxPeriods
  current := 0
  sampleSeconds := max sampleSeconds.toNat 1
  wpm := 0
  periods_le := Nat.min_le_right _ _
  current_lt := Nat.lt_min.2 ⟨Nat.le_max_right _ 1, by decide⟩
  sampleSeconds_pos := Nat.le_max_right _ _

/-- The length of a period in whole milliseconds, one at least. -/
def periodMs (m : SpeedMeter) : Nat :=
  max (m.sampleSeconds * 1000 / m.periods) 1

/-- The sum of two counts, at most 255. -/
def addCount (a : UInt8) (count : Nat) : UInt8 :=
  UInt8.ofNat (min (a.toNat + min count 255) 255)

/-- The meter after `count` more keystrokes. -/
def record (m : SpeedMeter) (count : Nat) : SpeedMeter :=
  have h : m.current < maxPeriods := Nat.lt_of_lt_of_le m.current_lt m.periods_le
  { m with buckets := m.buckets.set m.current (addCount m.buckets[m.current] count) h }

/-- The keystrokes in the window. -/
def total (m : SpeedMeter) : Nat :=
  (m.buckets.toList.take m.periods).foldr (fun count sum => count.toNat + sum) 0

/-- The speed of a total over a window, in whole words per minute, at most 65535. -/
def estimate (total sampleSeconds : Nat) : UInt16 :=
  UInt16.ofNat (min (total * 60 / (sampleSeconds * charsPerWord)) 65535)

/-- The meter after the open period closes: the speed is estimated, and the next period opens with
no keystroke. -/
def advance (m : SpeedMeter) : SpeedMeter :=
  let next := (m.current + 1) % m.periods
  have hn : next < m.periods := Nat.mod_lt _ m.periods_pos
  { m with
    wpm := estimate m.total m.sampleSeconds
    current := next
    buckets := m.buckets.set next 0 (Nat.lt_of_lt_of_le hn m.periods_le)
    current_lt := hn }

@[simp] theorem periods_record (m : SpeedMeter) (count : Nat) :
    (m.record count).periods = m.periods := rfl

@[simp] theorem periods_advance (m : SpeedMeter) : m.advance.periods = m.periods := rfl

@[simp] theorem wpm_record (m : SpeedMeter) (count : Nat) : (m.record count).wpm = m.wpm := rfl

theorem wpm_advance (m : SpeedMeter) : m.advance.wpm = estimate m.total m.sampleSeconds := rfl

end SpeedMeter

end StatusPanel
