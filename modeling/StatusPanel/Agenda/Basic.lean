/-!
# The agenda of chores

A table of limited size of the display's periodic chores. A chore falls due at a time on a 32-bit
millisecond clock that wraps, or at once when it is wanted soon. A time counts as reached for half
a turn of the clock after it, so no delay may be longer than that.

A chore is registered without a clock reading: its delay starts at the next look at the clock. It
stays in the table while it runs, and is re-armed or removed when it is completed.

## Main definitions

* `Agenda`: the table
* `Agenda.register`, `Agenda.wantSoon`: new chores and urgent ones
* `Agenda.poll`: the chore to run now
* `Agenda.complete`: the end of a run
* `Agenda.nextDeadline`: the time until a chore is to run

## Main results

* `Agenda.register_eq_none_iff`: a registration fails exactly when the table is full
* `Agenda.anchor_anchor`: only the first look at the clock starts a delay
-/

namespace StatusPanel

/-- A periodic chore of the display. -/
inductive Chore
  /-- Puts the panel to sleep when the user is idle. -/
  | idleCheck
  /-- Redraws the bars. -/
  | barRedraw
  deriving DecidableEq, Repr

/-- What becomes of a chore after it ran. -/
inductive Rearm
  /-- It runs again after a delay in milliseconds. -/
  | after (delay : UInt32)
  /-- It is removed. -/
  | cancel
  deriving DecidableEq, Repr

/-- The handle of a registered chore. -/
abbrev Token := UInt8

/-- When a chore falls due. -/
inductive Due
  /-- A delay after the next look at the clock. -/
  | waiting (delay : UInt32)
  /-- At a time. -/
  | fixed (time : UInt32)
  deriving DecidableEq, Repr

/-- The time of falling due when the clock is looked at now. -/
def Due.time (due : Due) (now : UInt32) : UInt32 :=
  match due with
  | .waiting delay => now + delay
  | .fixed time => time

/-- A registered chore. -/
structure Entry where
  token : Token
  chore : Chore
  /-- Whether the chore is due whatever the clock says. -/
  soon : Bool
  due : Due
  deriving DecidableEq, Repr

namespace Entry

/-- The entry after a look at the clock. -/
def anchor (e : Entry) (now : UInt32) : Entry :=
  { e with due := .fixed (e.due.time now) }

/-- The time since the entry fell due, around the clock. -/
def overdue (e : Entry) (now : UInt32) : UInt32 := now - e.due.time now

/-- Whether the entry's time is reached: it lies within the last half turn of the clock. -/
def isDue (e : Entry) (now : UInt32) : Bool := e.overdue now < 0x80000000

/-- The time until the entry is to run. -/
def wait (e : Entry) (now : UInt32) : UInt32 :=
  if e.soon || e.isDue now then 0 else e.due.time now - now

/-- The entry after a run that ended now. -/
def rearm (e : Entry) (delay now : UInt32) : Entry :=
  { e with soon := false, due := .fixed (now + delay) }

@[simp] theorem token_anchor (e : Entry) (now : UInt32) : (e.anchor now).token = e.token := rfl

@[simp] theorem chore_anchor (e : Entry) (now : UInt32) : (e.anchor now).chore = e.chore := rfl

@[simp] theorem soon_anchor (e : Entry) (now : UInt32) : (e.anchor now).soon = e.soon := rfl

@[simp] theorem overdue_anchor (e : Entry) (now : UInt32) :
    (e.anchor now).overdue now = e.overdue now := rfl

@[simp] theorem isDue_anchor (e : Entry) (now : UInt32) : (e.anchor now).isDue now = e.isDue now :=
  rfl

@[simp] theorem wait_anchor (e : Entry) (now : UInt32) : (e.anchor now).wait now = e.wait now :=
  rfl

end Entry

/-- Changes the first element that satisfies a test. -/
def changeFirst {α : Type} (test : α → Bool) (change : α → α) : List α → List α
  | [] => []
  | a :: rest => if test a then change a :: rest else a :: changeFirst test change rest

@[simp] theorem length_changeFirst {α : Type} (test : α → Bool) (change : α → α) (as : List α) :
    (changeFirst test change as).length = as.length := by
  induction as with
  | nil => rfl
  | cons a rest ih => by_cases h : test a <;> simp [changeFirst, h, ih]

/-- An agenda of at most `capacity` chores. -/
structure Agenda (capacity : Nat) where
  /-- The chores, in order of registration. -/
  entries : List Entry := []
  /-- The token of the next registration. -/
  nextToken : Token := 0
  length_le : entries.length ≤ capacity := by exact Nat.zero_le _
  deriving DecidableEq

namespace Agenda

variable {capacity : Nat}

/-- The agenda without chores. -/
def empty : Agenda capacity := {}

/-- The number of chores. -/
def size (a : Agenda capacity) : Nat := a.entries.length

/-- Registers a chore, unless the table is full. Tokens count up and wrap. -/
def register (a : Agenda capacity) (chore : Chore) (delay : UInt32) :
    Agenda capacity × Option Token :=
  if h : a.entries.length < capacity then
    ({ entries := a.entries ++ [⟨a.nextToken, chore, false, .waiting delay⟩]
       nextToken := a.nextToken + 1
       length_le := by simpa using Nat.succ_le_of_lt h }, some a.nextToken)
  else (a, none)

/-- Makes the chore of a token due at once. -/
def wantSoon (a : Agenda capacity) (token : Token) : Agenda capacity :=
  { a with
    entries := changeFirst (·.token == token) (fun e => { e with soon := true }) a.entries
    length_le := by simpa using a.length_le }

/-- Starts the delays that wait for a look at the clock. -/
def anchor (a : Agenda capacity) (now : UInt32) : Agenda capacity :=
  { a with
    entries := a.entries.map fun e => e.anchor now
    length_le := by simpa using a.length_le }

/-- The entry that is overdue for the longest time, the last of equals; `best` is the one found so
far. -/
def longestOverdue (now : UInt32) (best : Option Entry) : List Entry → Option Entry
  | [] => best
  | e :: rest =>
    match best with
    | some b =>
      longestOverdue now (if b.overdue now ≤ e.overdue now then some e else some b) rest
    | none => longestOverdue now (some e) rest

/-- The entry to run now: the first that is wanted soon, else the one overdue for the longest
time. -/
def pick (entries : List Entry) (now : UInt32) : Option Entry :=
  match entries.find? (·.soon) with
  | some e => some e
  | none => longestOverdue now none (entries.filter (·.isDue now))

/-- Looks at the clock for the chore to run now. It stays registered until it is completed. -/
def poll (a : Agenda capacity) (now : UInt32) : Agenda capacity × Option (Token × Chore) :=
  (a.anchor now, (pick (a.anchor now).entries now).map fun e => (e.token, e.chore))

/-- Re-arms or removes the chore of a token after a run that ended now. -/
def complete (a : Agenda capacity) (token : Token) (rearm : Rearm) (now : UInt32) :
    Agenda capacity :=
  match rearm with
  | .after delay =>
    { a with
      entries := changeFirst (·.token == token) (·.rearm delay now) a.entries
      length_le := by simpa using a.length_le }
  | .cancel =>
    { a with
      entries := a.entries.eraseP (·.token == token)
      length_le := Nat.le_trans (List.length_eraseP_le ..) a.length_le }

/-- Looks at the clock for the time until a chore is to run; `none` without chores. -/
def nextDeadline (a : Agenda capacity) (now : UInt32) : Agenda capacity × Option UInt32 :=
  (a.anchor now, ((a.anchor now).entries.map fun e => e.wait now).min?)

@[simp] theorem size_empty : (empty : Agenda capacity).size = 0 := rfl

@[simp] theorem size_anchor (a : Agenda capacity) (now : UInt32) :
    (a.anchor now).size = a.size := by
  simp [size, anchor]

@[simp] theorem anchor_anchor (a : Agenda capacity) (now later : UInt32) :
    (a.anchor now).anchor later = a.anchor now := by
  simp [anchor, Entry.anchor, Due.time]

@[simp] theorem size_wantSoon (a : Agenda capacity) (token : Token) :
    (a.wantSoon token).size = a.size := by
  simp [size, wantSoon]

/-- A registration fails exactly when the table is full. -/
theorem register_eq_none_iff (a : Agenda capacity) (chore : Chore) (delay : UInt32) :
    (a.register chore delay).2 = none ↔ a.size = capacity := by
  have h := a.length_le
  unfold register size
  split <;> simp <;> omega

end Agenda

end StatusPanel
