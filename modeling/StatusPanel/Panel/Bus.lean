/-!
# The panel's bus

Writes to a device on a two-wire bus. The bus accepts or refuses each write; which, is up to the
bus and given in advance. It keeps a record of what it accepted.

## Main definitions

* `Write`: the bytes for a device
* `Bus`: the record, and what is accepted
* `Bus.write`: one write
-/

namespace StatusPanel

/-- A write to a device. -/
structure Write where
  address : UInt8
  bytes : List UInt8
  deriving DecidableEq, Repr

/-- A bus. -/
structure Bus where
  /-- The accepted writes, in order. -/
  accepted : Array Write := #[]
  /-- The number of writes so far, accepted or not. -/
  attempts : Nat := 0
  /-- Whether the bus accepts the write that so many came before. -/
  accepts : Nat → Bool := fun _ => true

namespace Bus

/-- One write, and whether it was accepted. -/
def write (bus : Bus) (w : Write) : Bus × Bool :=
  if bus.accepts bus.attempts then
    ({ bus with accepted := bus.accepted.push w, attempts := bus.attempts + 1 }, true)
  else ({ bus with attempts := bus.attempts + 1 }, false)

/-- The bus when it goes on to accept so many writes and then none; without a number, all. -/
def limit (bus : Bus) : Option Nat → Bus
  | some n => { bus with accepts := fun i => i < bus.attempts + n }
  | none => { bus with accepts := fun _ => true }

end Bus

end StatusPanel
