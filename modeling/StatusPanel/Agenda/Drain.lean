import StatusPanel.Agenda.Basic

/-!
# Draining an agenda

Running chores one after another at one clock reading until none is due. A chore that is due again
at the time it ran would keep the drain going for ever, so the number of runs is limited, and the
outcome says whether the drain came to its end.

## Main definitions

* `ChoreRun`: a chore that ran, and what became of it
* `Drained`: the outcome of a drain
* `Agenda.drain`: the drain
-/

namespace StatusPanel

/-- A chore that ran. -/
structure ChoreRun where
  token : Token
  chore : Chore
  rearm : Rearm
  deriving DecidableEq, Repr

/-- The outcome of a drain of chores that act on a state of type `σ`. -/
structure Drained (σ : Type) (capacity : Nat) where
  /-- The state after the last run. -/
  state : σ
  /-- The agenda after the last run. -/
  agenda : Agenda capacity
  /-- The runs, in order. -/
  runs : List ChoreRun
  /-- Whether the drain ended because no chore was due. -/
  finished : Bool

namespace Agenda

variable {σ : Type} {capacity : Nat}

/-- Runs the due chores at one clock reading, at most `limit` of them. -/
def drain (act : σ → Chore → σ × Rearm) (now : UInt32) (limit : Nat) (state : σ)
    (agenda : Agenda capacity) : Drained σ capacity :=
  match agenda.poll now with
  | (agenda, none) => ⟨state, agenda, [], true⟩
  | (agenda, some (token, chore)) =>
    match limit with
    | 0 => ⟨state, agenda, [], false⟩
    | limit + 1 =>
      let (state, rearm) := act state chore
      let rest := drain act now limit state (agenda.complete token rearm now)
      { rest with runs := ⟨token, chore, rearm⟩ :: rest.runs }

end Agenda

end StatusPanel
