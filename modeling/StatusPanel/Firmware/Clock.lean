/-!
# The clock

Times are microseconds since boot on a counter of 64 bits, which does not wrap. A time beyond the
counter cannot be waited for.

## Main definitions

* `Clock.limit`: the first time beyond the counter
* `Clock.after?`: a time that lies a delay after another
* `Clock.milliseconds`: a time in milliseconds, on 32 bits

## Main results

* `Clock.after?_eq_some_iff`: exactly when there is such a time, and which
-/

namespace StatusPanel.Clock

/-- The first time beyond the counter. -/
def limit : Nat := UInt64.size

/-- The time a delay after another, unless it is beyond the counter. -/
def after? (time delay : Nat) : Option Nat :=
  if time + delay < limit then some (time + delay) else none

/-- The milliseconds of a time, on 32 bits. They wrap. -/
def milliseconds (time : Nat) : UInt32 := UInt32.ofNat (time / 1000)

theorem after?_eq_some_iff {time delay next : Nat} :
    after? time delay = some next ↔ next = time + delay ∧ next < limit := by
  unfold after?
  split <;> simp <;> omega

end StatusPanel.Clock
