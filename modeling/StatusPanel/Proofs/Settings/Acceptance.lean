import StatusPanel.Proofs.Settings.Keys
import StatusPanel.Proofs.Settings.Range

/-!
# Settings texts that are accepted

A settings text is accepted if no line of it is refused. Whether one is depends on the section that
is open and on nothing else that was read: a header has to name a section, and the value of a key
that names a field there has to be one of the field's kind.

## Main definitions

* `ValueKind.Reads`: a text is a value of a kind
* `Reading.Accepts`: lines are accepted while a section is open

## Main results

* `ValueKind.reads_flag_iff`, `ValueKind.reads_pin_iff`, `ValueKind.reads_iff_integer?`: the values
  of each kind
* `Reading.accepts_cons`: what has to hold of each line
* `Settings.read_eq_ok_iff_accepts`: a text is read if its lines are accepted
-/

namespace StatusPanel

open Text

theorem Except.exists_map_eq_ok_iff {ε α β : Type} {f : α → β} {x : Except ε α} :
    (∃ b, x.map f = .ok b) ↔ ∃ a, x = .ok a := by
  cases x with
  | ok a => exact iff_of_true ⟨_, rfl⟩ ⟨a, rfl⟩
  | error e => exact iff_of_false (fun ⟨_, h⟩ => nomatch h) (fun ⟨_, h⟩ => nomatch h)

/-! ## Values -/

namespace ValueKind

/-- Whether a text is a value of a kind. -/
def Reads (kind : ValueKind) (s : List Char) : Prop := ∃ v, kind.read s = .ok v

theorem reads_flag_iff {s : List Char} :
    flag.Reads s ↔ s = "true".toList ∨ s = "false".toList := by
  show (∃ v, flag? s = .ok v) ↔ _
  unfold flag?
  split
  case isTrue h => exact iff_of_true ⟨_, rfl⟩ (Or.inl h)
  case isFalse htrue =>
    split
    case isTrue h => exact iff_of_true ⟨_, rfl⟩ (Or.inr h)
    case isFalse hfalse => exact iff_of_false (fun ⟨_, h⟩ => nomatch h) (not_or.2 ⟨htrue, hfalse⟩)

theorem reads_pin_iff {s : List Char} :
    pin.Reads s ↔ ∃ n, numeral? 10 (withoutPinWord (unquote s)) = some n ∧ n ≤ lastPin :=
  Except.exists_map_eq_ok_iff.trans (exists_congr fun _ => pin?_eq_ok_iff)

/-- The values of the other kinds are the integers between the bounds of the kind. -/
theorem reads_iff_integer? {kind : ValueKind} (hpin : kind ≠ .pin) (hflag : kind ≠ .flag)
    {s : List Char} :
    kind.Reads s ↔ ∃ n, integer? s = some n ∧ kind.least ≤ n ∧ n ≤ kind.greatest := by
  have hbounds : ∀ n, n < kind.greatest + 1 ↔ n ≤ kind.greatest := fun n => Nat.lt_succ_iff
  have hread : kind.Reads s ↔ ∃ n, integerIn kind.least (kind.greatest + 1) s = .ok n := by
    cases kind with
    | pin => exact absurd rfl hpin
    | flag => exact absurd rfl hflag
    | _ => exact Except.exists_map_eq_ok_iff
  simp only [hread, integerIn_eq_ok_iff, hbounds]

end ValueKind

/-! ## Lines -/

namespace Reading

/-- Whether lines are accepted while a section is open. -/
def Accepts (owner : Section) (texts : List (List Char)) : Prop :=
  ∃ q, steps { owner } texts = .ok q

theorem steps_cons_eq_ok_iff {r q : Reading} {text : List Char} {rest : List (List Char)} :
    r.steps (text :: rest) = .ok q ↔ ∃ next, r.step text = .ok next ∧ next.steps rest = .ok q := by
  rw [steps]
  cases r.step text with
  | ok next => simp
  | error e => simp

/-- A line that is accepted is accepted whatever the settings are, and opens the same section. -/
theorem step_congr {r r' q : Reading} (howner : r'.owner = r.owner) {text : List Char}
    (h : r.step text = .ok q) : ∃ q', r'.step text = .ok q' ∧ q'.owner = q.owner := by
  unfold step at h ⊢
  cases hline : SettingsLine.ofText text with
  | silent =>
    rw [hline] at h
    obtain rfl := Except.ok.inj h
    exact ⟨r', rfl, howner⟩
  | header opened =>
    rw [hline] at h
    cases opened with
    | none => cases h
    | some owner =>
      obtain rfl := Except.ok.inj h
      exact ⟨_, rfl, rfl⟩
  | assign key value =>
    rw [hline] at h
    change r.assign key value = .ok q at h
    show ∃ q', r'.assign key value = .ok q' ∧ _
    unfold assign at h ⊢
    rw [howner]
    cases hnamed : Field.named? r.owner key with
    | none =>
      rw [hnamed] at h
      obtain rfl := Except.ok.inj h
      exact ⟨r', rfl, howner⟩
    | some f =>
      rw [hnamed] at h
      obtain ⟨v, hv, rfl⟩ := Except.exists_of_map_eq_ok h
      dsimp only
      rw [hv]
      exact ⟨_, rfl, rfl⟩

theorem accepts_of_steps {r q : Reading} {texts : List (List Char)} (h : r.steps texts = .ok q)
    {r' : Reading} (howner : r'.owner = r.owner) : ∃ q', r'.steps texts = .ok q' := by
  induction texts generalizing r r' with
  | nil => exact ⟨r', rfl⟩
  | cons text rest ih =>
    obtain ⟨next, hstep, hrest⟩ := steps_cons_eq_ok_iff.1 h
    obtain ⟨next', hstep', hsame⟩ := step_congr howner hstep
    obtain ⟨q', hq'⟩ := ih hrest hsame
    exact ⟨q', steps_cons_eq_ok_iff.2 ⟨next', hstep', hq'⟩⟩

/-- Only the open section matters. -/
theorem exists_steps_iff_accepts {r : Reading} {texts : List (List Char)} :
    (∃ q, r.steps texts = .ok q) ↔ Accepts r.owner texts :=
  ⟨fun ⟨_, h⟩ => accepts_of_steps h rfl, fun ⟨_, h⟩ => accepts_of_steps h rfl⟩

theorem accepts_nil (owner : Section) : Accepts owner [] := ⟨_, rfl⟩

/-- What has to hold of a line, and of those behind it, to be accepted. -/
theorem accepts_cons {owner : Section} {text : List Char} {rest : List (List Char)} :
    Accepts owner (text :: rest) ↔
      match SettingsLine.ofText text with
      | .silent => Accepts owner rest
      | .header opened => ∃ next, opened = some next ∧ Accepts next rest
      | .assign key value =>
        (∀ f, Field.named? owner key = some f → f.kind.Reads value) ∧ Accepts owner rest := by
  have hsteps : Accepts owner (text :: rest) ↔
      ∃ next, step { owner } text = .ok next ∧ Accepts next.owner rest := by
    constructor
    · rintro ⟨q, hq⟩
      obtain ⟨next, hstep, hrest⟩ := steps_cons_eq_ok_iff.1 hq
      exact ⟨next, hstep, exists_steps_iff_accepts.1 ⟨q, hrest⟩⟩
    · rintro ⟨next, hstep, hrest⟩
      obtain ⟨q, hq⟩ := exists_steps_iff_accepts.2 hrest
      exact ⟨q, steps_cons_eq_ok_iff.2 ⟨next, hstep, hq⟩⟩
  rw [hsteps]
  unfold step
  cases SettingsLine.ofText text with
  | silent => simp [apply]
  | header opened => cases opened <;> simp [apply]
  | assign key value =>
    show (∃ next, assign { owner } key value = .ok next ∧ _) ↔ _
    unfold assign
    cases hnamed : Field.named? owner key with
    | none => simp [hnamed]
    | some f =>
      constructor
      · rintro ⟨next, hstep, hrest⟩
        obtain ⟨v, hv, rfl⟩ := Except.exists_of_map_eq_ok hstep
        refine ⟨fun g hg => ?_, hrest⟩
        obtain rfl := Option.some.inj (hnamed.symm.trans hg)
        exact ⟨v, hv⟩
      · rintro ⟨hreads, hrest⟩
        obtain ⟨v, hv⟩ := hreads f hnamed
        dsimp only
        rw [hv]
        exact ⟨_, rfl, hrest⟩

end Reading

/-- A text is read if its lines are accepted from the root on. -/
theorem Settings.read_eq_ok_iff_accepts {text : String} :
    (∃ s, read text = .ok s) ↔ Reading.Accepts .root (lines text.toList) :=
  Except.exists_map_eq_ok_iff

end StatusPanel
