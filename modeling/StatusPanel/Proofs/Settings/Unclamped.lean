import StatusPanel.Proofs.Controller.Console
import StatusPanel.Proofs.Keyboard.SlidingWindow
import StatusPanel.Proofs.Settings.Range
import StatusPanel.Surface.Recorder

/-!
# Settings that need no clamp

Whoever takes settings guards against some of them: the controller and its power state lift an
interval of zero, the typing speed meter brings its window and the number of its periods into bounds
and keeps a period from lasting no millisecond at all. Settings that were read are in range, and on
these none of the guards acts. The periods then cover the window up to less than a millisecond each.

## Main results

* `SpeedMeter.periodMs_eq`: on no meter a period has to be lengthened to a millisecond
* `SpeedMeter.periodMs_mul_le`, `SpeedMeter.lt_periodMs_mul_add`: the periods of a meter cover its
  window
* `Controller.withIntervals_of_inRange`: intervals in range are not lifted
* `Settings.needs_no_clamp`: what holds of all settings that were read
-/

namespace StatusPanel

/-! ## The periods of a meter -/

namespace SpeedMeter

variable (m : SpeedMeter)

theorem fifteen_le_div : 15 ≤ m.sampleSeconds * 1000 / m.periods := by
  -- the shortest window in the most periods: 1000 / 64
  have hperiods : m.periods ≤ 64 := m.periods_le
  have hseconds := m.sampleSeconds_pos
  rw [Nat.le_div_iff_mul_le m.periods_pos]
  omega

/-- A window has a second at least and no more than 64 periods, so none of them is too short. -/
theorem periodMs_eq : m.periodMs = m.sampleSeconds * 1000 / m.periods :=
  Nat.max_eq_left (Nat.le_trans (by decide) m.fifteen_le_div)

theorem fifteen_le_periodMs : 15 ≤ m.periodMs := m.periodMs_eq ▸ m.fifteen_le_div

/-- The periods of a meter are together no longer than its window. -/
theorem periodMs_mul_le : m.periodMs * m.periods ≤ m.sampleSeconds * 1000 := by
  rw [periodMs_eq]
  exact Nat.div_mul_le_self _ _

/-- What the periods leave of the window is less than a millisecond for each of them. -/
theorem lt_periodMs_mul_add : m.sampleSeconds * 1000 < m.periodMs * m.periods + m.periods := by
  rw [periodMs_eq]
  exact Nat.lt_div_mul_add m.periods_pos

theorem periods_start {samplePeriods : UInt8} (h : 0 < samplePeriods.toNat)
    (sampleSeconds : UInt16) :
    (start sampleSeconds samplePeriods).periods = min samplePeriods.toNat 64 :=
  congrArg (min · 64) (Nat.max_eq_left h)

theorem sampleSeconds_start {sampleSeconds : UInt16} (h : 0 < sampleSeconds.toNat)
    (samplePeriods : UInt8) :
    (start sampleSeconds samplePeriods).sampleSeconds = sampleSeconds.toNat :=
  Nat.max_eq_left h

end SpeedMeter

/-! ## The intervals of a controller -/

namespace Settings

theorem InRange.checkInterval_pos {s : Settings} (h : s.InRange) : 0 < s.timing.checkInterval :=
  UInt32.lt_iff_toNat_lt.2 (h .checkInterval).1

theorem InRange.barInterval_pos {s : Settings} (h : s.InRange) : 0 < s.timing.barInterval :=
  UInt32.lt_iff_toNat_lt.2 (h .barInterval).1

end Settings

namespace Controller

theorem withIntervals_of_inRange {s : Settings} (h : s.InRange) : withIntervals s = s := by
  rw [withIntervals, Console.max_one_of_pos h.checkInterval_pos,
    Console.max_one_of_pos h.barInterval_pos]

/-- A controller takes over settings in range, and its power state the interval of the idle
check. -/
theorem start_of_inRange {S ι : Type} [Surface S ι] (surface : S) {s : Settings} (h : s.InRange)
    (now : UInt32) :
    (start surface s now : Controller S ι).settings = s ∧
      (start surface s now : Controller S ι).power.checkInterval = s.timing.checkInterval := by
  have hsettings : (start surface s now : Controller S ι).settings = s :=
    withIntervals_of_inRange h
  have hpower : (start surface s now : Controller S ι).power.checkInterval =
      max (withIntervals s).timing.checkInterval 1 := rfl
  rw [withIntervals_of_inRange h, Console.max_one_of_pos h.checkInterval_pos] at hpower
  exact ⟨hsettings, hpower⟩

end Controller

/-! ## Settings that were read -/

namespace Settings

/-- **Settings that were read need no clamp.** The bus address has seven bits, the pins are pins of
the chip, and no interval, scale, window or number of periods is zero. Hence a typing speed meter
with these settings has their window and, up to 64, their periods, whatever it counts; a period has
at least 15 milliseconds without being lengthened, and what the periods leave of the window is less
than a millisecond for each of them. A controller with these settings keeps both intervals. -/
theorem needs_no_clamp {text : String} {s : Settings} (h : read text = .ok s) :
    (s.display.address.toNat ≤ 0x7F ∧ s.display.sdaPin.toNat ≤ 29 ∧ s.display.sclPin.toNat ≤ 29 ∧
        s.ledPin.toNat ≤ 29 ∧ 0 < s.timing.checkInterval.toNat ∧ 0 < s.timing.barInterval.toNat ∧
        0 < s.typing.scaleMax.toNat ∧ 0 < s.typing.sampleSeconds.toNat ∧
        0 < s.typing.samplePeriods.toNat) ∧
      (∀ calls : List MeterCall,
        let m := (SpeedMeter.start s.typing.sampleSeconds s.typing.samplePeriods).after calls
        let periods := min s.typing.samplePeriods.toNat 64
        let window := s.typing.sampleSeconds.toNat * 1000
        (m.periods = periods ∧ m.sampleSeconds = s.typing.sampleSeconds.toNat ∧
            m.periodMs = window / periods) ∧
          15 ≤ m.periodMs ∧ window < m.periodMs * periods + periods ∧
          m.periodMs * periods ≤ window) ∧
      ∀ (S ι : Type) [Surface S ι] (surface : S) (now : UInt32),
        let c : Controller S ι := .start surface s now
        c.settings = s ∧ c.power.checkInterval = s.timing.checkInterval := by
  have hrange := inRange_of_read h
  have hseconds : 0 < s.typing.sampleSeconds.toNat := (hrange .sampleSeconds).1
  have hperiods : 0 < s.typing.samplePeriods.toNat := (hrange .samplePeriods).1
  refine ⟨⟨(hrange .address).2, (hrange .sdaPin).2, (hrange .sclPin).2, (hrange .ledPin).2,
    (hrange .checkInterval).1, (hrange .barInterval).1, (hrange .scaleMax).1, hseconds, hperiods⟩,
    fun calls => ?_, fun S ι _ surface now => Controller.start_of_inRange surface hrange now⟩
  intro m periods window
  obtain ⟨hfixed, hfixed'⟩ :=
    (SpeedMeter.start s.typing.sampleSeconds s.typing.samplePeriods).fixed_after calls
  have hm : m.periods = periods := hfixed.trans (SpeedMeter.periods_start hperiods _)
  have hm' : m.sampleSeconds = s.typing.sampleSeconds.toNat :=
    hfixed'.trans (SpeedMeter.sampleSeconds_start hseconds _)
  have hwindow : m.sampleSeconds * 1000 = window := by rw [hm']
  rw [← hwindow, ← hm]
  exact ⟨⟨rfl, hm', m.periodMs_eq⟩, m.fifteen_le_periodMs, m.lt_periodMs_mul_add,
    m.periodMs_mul_le⟩

/-- The shortest window in the most periods: each of them lasts fifteen milliseconds, and together
they leave forty of the window. The longest interval is taken as it is. -/
theorem needs_no_clamp_shortest :
    let text :=
      "[wpm]\nsample_seconds = 1\nsample_periods = 0xff\n[timing]\ncheck_interval_ms = 4294967295"
    let s : Settings :=
      { timing.checkInterval := 4294967295, typing.sampleSeconds := 1, typing.samplePeriods := 255 }
    read text = .ok s ∧ (SpeedMeter.start 1 255).periods = 64 ∧
      (SpeedMeter.start 1 255).periodMs = 15 ∧
      (Controller.start {} s 0 : Controller Recorder Asset).settings = s := by
  intro text s
  have hread : read text = .ok s := by decide +kernel
  obtain ⟨-, hmeter, hcontroller⟩ := needs_no_clamp hread
  obtain ⟨⟨hperiods, -, hperiod⟩, -⟩ := hmeter []
  exact ⟨hread, hperiods, hperiod.trans (by decide), (hcontroller Recorder Asset {} 0).1⟩

end Settings

end StatusPanel
