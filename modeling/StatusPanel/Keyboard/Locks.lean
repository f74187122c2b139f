import StatusPanel.Byte

/-!
# Lock keys

The state of the three lock keys and the separators drawn between neighbouring lock icons.

## Main definitions

* `Locks`: which lock keys are on
* `Locks.ofReport`: the state in an output report of the host
* `Separator`: the shape between two icons, by the state of its neighbours
-/

namespace StatusPanel

/-- A key that toggles a lock. -/
inductive LockKey
  | caps
  | num
  | scroll
  deriving DecidableEq, Repr

/-- The state of the lock keys. -/
structure Locks where
  caps : Bool
  num : Bool
  scroll : Bool
  deriving DecidableEq, Repr

/-- The shape of a separator, named for the states of its left and right neighbour. -/
inductive Separator
  | offOff
  | onOff
  | offOn
  | onOn
  deriving DecidableEq, Repr

/-- The separator between two neighbours. -/
def Separator.between : Bool → Bool → Separator
  | false, false => .offOff
  | true, false => .onOff
  | false, true => .offOn
  | true, true => .onOn

namespace Locks

/-- No lock is on. -/
def off : Locks := ⟨false, false, false⟩

/-- The locks of an output report: bit 0 is num, bit 1 caps, bit 2 scroll. -/
def ofReport (report : UInt8) : Locks where
  caps := Byte.bit report 1
  num := Byte.bit report 0
  scroll := Byte.bit report 2

/-- The state of one lock key. -/
def get (locks : Locks) : LockKey → Bool
  | .caps => locks.caps
  | .num => locks.num
  | .scroll => locks.scroll

/-- The separator between the caps and the num icon. -/
def leftSeparator (locks : Locks) : Separator := .between locks.caps locks.num

/-- The separator between the num and the scroll icon. -/
def rightSeparator (locks : Locks) : Separator := .between locks.num locks.scroll

end Locks

end StatusPanel
