/-!
# Mailboxes

A mailbox holds a limited number of messages, first in, first out. A message for a full mailbox is
lost, and the sender is told.

## Main definitions

* `Mailbox`: the waiting messages
* `Mailbox.send`: one more message, if there is room
* `Mailbox.receive`: the oldest message, if there is one

## Main results

* `Mailbox.messages_send`: a message goes behind those that wait, unless the mailbox is full
-/

namespace StatusPanel

/-- A mailbox for at most `capacity` messages. -/
structure Mailbox (capacity : Nat) (μ : Type) where
  /-- The waiting messages, the oldest first. -/
  messages : List μ := []
  length_le : messages.length ≤ capacity := by exact Nat.zero_le _

namespace Mailbox

variable {capacity : Nat} {μ : Type}

/-- The mailbox without messages. -/
def empty : Mailbox capacity μ := {}

/-- The number of waiting messages. -/
def size (m : Mailbox capacity μ) : Nat := m.messages.length

/-- Whether there is no room. -/
def isFull (m : Mailbox capacity μ) : Bool := m.messages.length = capacity

/-- Puts a message last; `false` if it was lost for want of room. -/
def send (m : Mailbox capacity μ) (message : μ) : Mailbox capacity μ × Bool :=
  if h : m.messages.length < capacity then
    (⟨m.messages ++ [message], by simpa using Nat.succ_le_of_lt h⟩, true)
  else (m, false)

/-- Takes the oldest message. -/
def receive (m : Mailbox capacity μ) : Mailbox capacity μ × Option μ :=
  match h : m.messages with
  | [] => (m, none)
  | message :: rest =>
    (⟨rest, Nat.le_of_succ_le (by simpa [h] using m.length_le)⟩, some message)

/-- A message is lost exactly when the mailbox is full. -/
theorem send_snd (m : Mailbox capacity μ) (message : μ) : (m.send message).2 = !m.isFull := by
  have := m.length_le
  unfold send isFull
  split <;> simp <;> omega

theorem messages_send (m : Mailbox capacity μ) (message : μ) :
    (m.send message).1.messages =
      if m.isFull then m.messages else m.messages ++ [message] := by
  have := m.length_le
  unfold send isFull
  split
  · rw [if_neg (by simp; omega)]
  · rw [if_pos (by simp; omega)]

end Mailbox

end StatusPanel
