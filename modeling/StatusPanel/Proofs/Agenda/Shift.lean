import StatusPanel.Proofs.Agenda.Tokens

/-!
# Agendas at other times

To shift an agenda is to move the times of its entries by a distance, around the clock; a delay that
waits for a first look at the clock stays as it is. An agenda that is shifted, and asked at times
that are shifted alike, gives the same answers: it reads the clock for the time between two readings
only, so it does not matter where the clock wraps.

## Main definitions

* `Due.shift`, `Entry.shift`, `Agenda.shift`: the same at other times

## Main results

* `Agenda.poll_shift`, `Agenda.nextDeadline_shift`: looks at the clock
* `Agenda.register_shift`, `Agenda.wantSoon_shift`, `Agenda.complete_shift`: changes
-/

namespace StatusPanel

/-- The same time of falling due, moved by a distance. -/
def Due.shift (distance : UInt32) : Due → Due
  | .waiting delay => .waiting delay
  | .fixed time => .fixed (time + distance)

/-- The time between two readings does not change when both are moved. -/
theorem add_sub_add_right (now time distance : UInt32) :
    (now + distance) - (time + distance) = now - time := by
  grind

theorem Due.time_shift (due : Due) (now distance : UInt32) :
    (due.shift distance).time (now + distance) = due.time now + distance := by
  cases due with
  | waiting delay =>
    show now + distance + delay = now + delay + distance
    grind
  | fixed time => rfl

namespace Entry

variable (e : Entry) (distance now : UInt32)

/-- The same entry, moved by a distance. -/
def shift (distance : UInt32) (e : Entry) : Entry := { e with due := e.due.shift distance }

theorem anchor_shift :
    (e.shift distance).anchor (now + distance) = (e.anchor now).shift distance := by
  rw [anchor, shift, Due.time_shift]
  rfl

@[simp] theorem overdue_shift : (e.shift distance).overdue (now + distance) = e.overdue now := by
  rw [overdue, shift, Due.time_shift, add_sub_add_right, overdue]

@[simp] theorem isDue_shift : (e.shift distance).isDue (now + distance) = e.isDue now := by
  rw [isDue, overdue_shift, isDue]

@[simp] theorem wait_shift : (e.shift distance).wait (now + distance) = e.wait now := by
  rw [wait, isDue_shift, wait]
  unfold shift
  rw [Due.time_shift, add_sub_add_right]

theorem rearm_shift (delay : UInt32) :
    (e.shift distance).rearm delay (now + distance) = (e.rearm delay now).shift distance := by
  have htime : now + distance + delay = now + delay + distance := by grind
  rw [rearm, rearm, htime]
  rfl

end Entry

namespace Agenda

variable {capacity : Nat} (a : Agenda capacity) (distance now : UInt32)

/-- The same agenda, moved by a distance. -/
def shift (distance : UInt32) (a : Agenda capacity) : Agenda capacity where
  entries := a.entries.map (Entry.shift distance)
  nextToken := a.nextToken
  length_le := by simpa using a.length_le

omit a in
theorem ext_entries {a b : Agenda capacity} (hentries : a.entries = b.entries)
    (htoken : a.nextToken = b.nextToken) : a = b := by
  obtain ⟨entries, token, _⟩ := a
  obtain ⟨others, other, _⟩ := b
  obtain rfl : entries = others := hentries
  obtain rfl : token = other := htoken
  rfl

@[simp] theorem shift_empty : (.empty : Agenda capacity).shift distance = .empty := rfl

theorem anchor_shift :
    (a.shift distance).anchor (now + distance) = (a.anchor now).shift distance := by
  refine ext_entries ?_ rfl
  show (a.entries.map _).map _ = (a.entries.map _).map _
  rw [List.map_map, List.map_map]
  exact List.map_congr_left fun e _ => e.anchor_shift distance now

/-! ## Looks at the clock -/

omit a in
theorem longestOverdue_shift (best : Option Entry) (entries : List Entry) :
    longestOverdue (now + distance) (best.map (Entry.shift distance))
        (entries.map (Entry.shift distance)) =
      (longestOverdue now best entries).map (Entry.shift distance) := by
  induction entries generalizing best with
  | nil => rfl
  | cons e rest ih =>
    cases best with
    | none => exact ih (some e)
    | some b =>
      rw [List.map_cons, Option.map_some, longestOverdue, longestOverdue, Entry.overdue_shift,
        Entry.overdue_shift]
      split
      · exact ih (some e)
      · exact ih (some b)

omit a in
theorem pick_shift (entries : List Entry) :
    pick (entries.map (Entry.shift distance)) (now + distance) =
      (pick entries now).map (Entry.shift distance) := by
  have hsoon : (entries.map (Entry.shift distance)).find? (·.soon) =
      (entries.find? (·.soon)).map (Entry.shift distance) := List.find?_map ..
  have hdue : (entries.map (Entry.shift distance)).filter (·.isDue (now + distance)) =
      (entries.filter (·.isDue now)).map (Entry.shift distance) := by
    rw [List.filter_map]
    exact congrArg _ (List.filter_congr fun e _ => e.isDue_shift distance now)
  unfold pick
  rw [hsoon, hdue]
  cases entries.find? (·.soon) with
  | some e => rfl
  | none => exact longestOverdue_shift distance now none _

/-- The same chore is due. -/
theorem poll_shift :
    (a.shift distance).poll (now + distance) = ((a.poll now).1.shift distance, (a.poll now).2) := by
  unfold poll
  rw [anchor_shift]
  refine Prod.ext rfl ?_
  show (pick ((a.anchor now).entries.map _) _).map _ = _
  rw [pick_shift, Option.map_map]
  rfl

/-- The time to wait is the same. -/
theorem nextDeadline_shift :
    (a.shift distance).nextDeadline (now + distance) =
      ((a.nextDeadline now).1.shift distance, (a.nextDeadline now).2) := by
  unfold nextDeadline
  rw [anchor_shift]
  refine Prod.ext rfl ?_
  show (((a.anchor now).entries.map _).map _).min? = _
  rw [List.map_map]
  exact congrArg List.min? (List.map_congr_left fun e _ => e.wait_shift distance now)

/-! ## Changes -/

theorem register_shift (chore : Chore) (delay : UInt32) :
    (a.shift distance).register chore delay =
      ((a.register chore delay).1.shift distance, (a.register chore delay).2) := by
  have hlength : (a.shift distance).entries.length = a.entries.length := List.length_map ..
  unfold register
  by_cases h : a.entries.length < capacity
  · rw [dif_pos h, dif_pos (hlength.symm ▸ h)]
    refine Prod.ext (ext_entries ?_ rfl) rfl
    show a.entries.map (Entry.shift distance) ++ [_] = (a.entries ++ [_]).map (Entry.shift distance)
    rw [List.map_append]
    rfl
  · rw [dif_neg h, dif_neg (hlength.symm ▸ h)]

theorem wantSoon_shift (token : Token) :
    (a.shift distance).wantSoon token = (a.wantSoon token).shift distance := by
  refine ext_entries ?_ rfl
  exact changeFirst_map (fun _ => by rfl) (fun _ => by rfl) a.entries

theorem complete_shift (token : Token) (rearm : Rearm) :
    (a.shift distance).complete token rearm (now + distance) =
      (a.complete token rearm now).shift distance := by
  cases rearm with
  | after delay =>
    refine ext_entries ?_ rfl
    exact changeFirst_map (fun _ => by rfl) (fun e => e.rearm_shift distance now delay) a.entries
  | cancel =>
    refine ext_entries ?_ rfl
    exact List.eraseP_map ..

end Agenda

end StatusPanel
