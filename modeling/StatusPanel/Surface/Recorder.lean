import StatusPanel.Surface.Basic
import StatusPanel.Asset.Basic

/-!
# The recording surface

A surface that keeps a record of the calls it accepted. It draws assets by name, and can be told to
refuse calls; a refused call leaves no record.

## Main definitions

* `Operation`: an accepted call
* `Recorder`: the record, and what to refuse
* `Recorder.flushGroups` and its neighbours: summaries of the record
-/

namespace StatusPanel

/-- A call that a recording surface accepted. -/
inductive Operation
  /-- A stroke was drawn. -/
  | drew (stroke : Stroke Asset)
  /-- The panel was switched. -/
  | switched (on : Bool)
  /-- The strokes were shown. -/
  | flushed
  deriving DecidableEq, Repr

/-- A recording surface. -/
structure Recorder where
  /-- The accepted calls, in order. -/
  operations : Array Operation := #[]
  /-- The power last commanded. -/
  powered : Bool := true
  /-- Whether every draw is refused. -/
  refuseDraws : Bool := false
  /-- How many draws come before the one that is refused. -/
  refuseAfter : Option Nat := none
  /-- Whether power commands are refused. -/
  refusePower : Bool := false
  /-- Whether flushes are refused. -/
  refuseFlush : Bool := false

namespace Recorder

/-- Draws a stroke. The single refusal is counted down first, by refused draws too. -/
def draw (r : Recorder) (stroke : Stroke Asset) : Recorder × Reply :=
  match r.refuseAfter with
  | some 0 => ({ r with refuseAfter := none }, .error .communication)
  | refuseAfter =>
    let r := { r with refuseAfter := refuseAfter.map (· - 1) }
    if r.refuseDraws then (r, .error .communication)
    else ({ r with operations := r.operations.push (.drew stroke) }, .ok ())

/-- Switches the panel. -/
def power (r : Recorder) (on : Bool) : Recorder × Reply :=
  if r.refusePower then (r, .error .communication)
  else ({ r with operations := r.operations.push (.switched on), powered := on }, .ok ())

/-- Shows what was drawn. -/
def flush (r : Recorder) : Recorder × Reply :=
  if r.refuseFlush then (r, .error .communication)
  else ({ r with operations := r.operations.push .flushed }, .ok ())

instance : Surface Recorder Asset := ⟨draw, power, flush⟩

/-- The recorder with an empty record. -/
def clear (r : Recorder) : Recorder := { r with operations := #[] }

/-- The pictures drawn, with their places. -/
def images (r : Recorder) : List (UInt16 × UInt16 × Asset) :=
  r.operations.toList.filterMap fun
    | .drew (.image x y asset) => some (x, y, asset)
    | _ => none

/-- The number of flushes. -/
def flushes (r : Recorder) : Nat :=
  r.operations.toList.countP (· == .flushed)

/-- The power commands. -/
def powerCommands (r : Recorder) : List Bool :=
  r.operations.toList.filterMap fun
    | .switched on => some on
    | _ => none

/-- The strokes drawn. -/
def strokes (r : Recorder) : List (Stroke Asset) :=
  r.operations.toList.filterMap fun
    | .drew stroke => some stroke
    | _ => none

/-- The strokes between flushes, behind the strokes `pending`; those after the last flush are left
out. -/
def groupsFrom (pending : List (Stroke Asset)) : List Operation → List (List (Stroke Asset))
  | [] => []
  | .drew stroke :: rest => groupsFrom (pending ++ [stroke]) rest
  | .switched _ :: rest => groupsFrom pending rest
  | .flushed :: rest => pending :: groupsFrom [] rest

/-- The strokes before each flush since the one before it. -/
def flushGroups (r : Recorder) : List (List (Stroke Asset)) :=
  groupsFrom [] r.operations.toList

end Recorder

end StatusPanel
