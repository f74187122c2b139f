import Mathlib.Data.List.InsertIdx
import StatusPanel.Agenda.Basic

/-!
# The tokens of an agenda

An agenda counts its registrations on eight bits, so a token comes again after 256 of them, and the
chore that had it first may still be registered. Then two entries carry one token, and it stands for
the one that was registered first. Here the entries are told apart by the numbers of their
registrations, counted without a bound.

## Main definitions

* `Agenda.Request`, `Agenda.serve`: an operation of an agenda, and the agenda after it
* `Agenda.ActsAt`: a token stands for the entry at a place
* `Agenda.Roll`: an agenda with the numbers of the registrations of its entries

## Main results

* `Agenda.actsAt_iff`: a token stands for the first entry that carries it
* `Agenda.Roll.sound_after`: in every run the tokens are the numbers of the registrations
* `Agenda.Roll.nodup_tokens_iff`: when no two entries carry one token, and when a token stands for
  the entry of its registration
-/

namespace StatusPanel

theorem changeFirst_eq_modify {α : Type} (test : α → Bool) (change : α → α) (as : List α) :
    changeFirst test change as =
      match as.findIdx? test with
      | some i => as.modify i change
      | none => as := by
  induction as with
  | nil => rfl
  | cons a rest ih =>
    rw [changeFirst, List.findIdx?_cons]
    split
    · rfl
    · rw [ih]
      cases rest.findIdx? test <;> rfl

theorem map_changeFirst {α β : Type} (test : α → Bool) {change : α → α} {view : α → β}
    (h : ∀ a, view (change a) = view a) (as : List α) :
    (changeFirst test change as).map view = as.map view := by
  induction as with
  | nil => rfl
  | cons a rest ih =>
    rw [changeFirst]
    split
    · rw [List.map_cons, List.map_cons, h]
    · rw [List.map_cons, List.map_cons, ih]

/-- The first change in a view is the view of the first change. -/
theorem changeFirst_map {α β : Type} {view : α → β} {test : β → Bool} {test' : α → Bool}
    {change : β → β} {change' : α → α} (htest : ∀ a, test (view a) = test' a)
    (hchange : ∀ a, change (view a) = view (change' a)) (as : List α) :
    changeFirst test change (as.map view) = (changeFirst test' change' as).map view := by
  induction as with
  | nil => rfl
  | cons a rest ih =>
    rw [List.map_cons, changeFirst, changeFirst, ih, htest, hchange]
    split <;> rfl

/-- An element after the first change was there before, or is the change of one that satisfies the
test. -/
theorem mem_changeFirst {α : Type} {test : α → Bool} {change : α → α} {as : List α} {b : α}
    (h : b ∈ changeFirst test change as) :
    b ∈ as ∨ ∃ a ∈ as, test a = true ∧ b = change a := by
  induction as with
  | nil => exact Or.inl h
  | cons a rest ih =>
    rw [changeFirst] at h
    split at h
    case isTrue htest =>
      rcases List.mem_cons.1 h with rfl | hrest
      · exact Or.inr ⟨a, List.mem_cons_self .., htest, rfl⟩
      · exact Or.inl (List.mem_cons_of_mem a hrest)
    case isFalse =>
      rcases List.mem_cons.1 h with rfl | hrest
      · exact Or.inl (List.mem_cons_self ..)
      · rcases ih hrest with hrest | ⟨x, hx, hchanged⟩
        · exact Or.inl (List.mem_cons_of_mem a hrest)
        · exact Or.inr ⟨x, List.mem_cons_of_mem a hx, hchanged⟩

namespace Agenda

variable {capacity : Nat}

/-- What an agenda is asked. -/
inductive Request
  | register (chore : Chore) (delay : UInt32)
  | wantSoon (token : Token)
  | poll (now : UInt32)
  | nextDeadline (now : UInt32)
  | complete (token : Token) (rearm : Rearm) (now : UInt32)

/-- The agenda after a request. -/
def serve (a : Agenda capacity) : Request → Agenda capacity
  | .register chore delay => (a.register chore delay).1
  | .wantSoon token => a.wantSoon token
  | .poll now => (a.poll now).1
  | .nextDeadline now => (a.nextDeadline now).1
  | .complete token rearm now => a.complete token rearm now

/-- A registration adds an entry under the next token, or finds the table full. -/
theorem register_cases (a : Agenda capacity) (chore : Chore) (delay : UInt32) :
    (∃ b : Agenda capacity, a.register chore delay = (b, some a.nextToken) ∧
      b.entries = a.entries ++ [⟨a.nextToken, chore, false, .waiting delay⟩] ∧
      b.nextToken = a.nextToken + 1) ∨
    a.register chore delay = (a, none) := by
  unfold register
  split
  · exact Or.inl ⟨_, rfl, rfl, rfl⟩
  · exact Or.inr rfl

/-! ## What a token stands for -/

/-- The place of the first entry with a token. -/
def place (a : Agenda capacity) (token : Token) : Option Nat :=
  a.entries.findIdx? (·.token == token)

/-- Whatever is asked with a token is done to the entry at a place, and to no other. -/
structure ActsAt (a : Agenda capacity) (token : Token) (i : Nat) : Prop where
  wantSoon : (a.wantSoon token).entries = a.entries.modify i fun e => { e with soon := true }
  rearm (delay now : UInt32) :
    (a.complete token (.after delay) now).entries = a.entries.modify i (·.rearm delay now)
  cancel (now : UInt32) : (a.complete token .cancel now).entries = a.entries.eraseIdx i

variable {a : Agenda capacity} {token : Token} {i : Nat}

theorem place_eq_some_iff :
    a.place token = some i ↔
      ∃ h : i < a.entries.length, a.entries[i].token = token ∧
        ∀ j (hj : j < i), a.entries[j].token ≠ token := by
  rw [place, List.findIdx?_eq_some_iff_getElem]
  simp only [beq_iff_eq, ne_eq]

theorem changeFirst_of_place (h : a.place token = some i) (change : Entry → Entry) :
    changeFirst (·.token == token) change a.entries = a.entries.modify i change := by
  rw [changeFirst_eq_modify, ← place, h]

theorem entries_cancel (a : Agenda capacity) (token : Token) (now : UInt32) :
    (a.complete token .cancel now).entries =
      match a.place token with
      | some i => a.entries.eraseIdx i
      | none => a.entries := by
  change a.entries.eraseP (·.token == token) = _
  rw [List.eraseP_eq_eraseIdx, ← place]
  cases a.place token <;> rfl

theorem actsAt_of_place (h : a.place token = some i) : a.ActsAt token i where
  wantSoon := changeFirst_of_place h _
  rearm delay now := changeFirst_of_place h _
  cancel now := by rw [entries_cancel, h]

/-- A token of the agenda stands for the first entry that carries it. -/
theorem actsAt_iff (hi : i < a.entries.length) (hcarries : a.entries[i].token = token) :
    a.ActsAt token i ↔ a.place token = some i := by
  refine ⟨fun h => ?_, actsAt_of_place⟩
  obtain ⟨j, hj⟩ : ∃ j, a.place token = some j := by
    refine Option.isSome_iff_exists.1 ?_
    rw [place, List.findIdx?_isSome, List.any_eq_true]
    exact ⟨a.entries[i], List.getElem_mem hi, beq_iff_eq.2 hcarries⟩
  by_cases hji : j = i
  · rw [hj, hji]
  · -- were it another place, no delay would be noted at this one
    have hdue (delay : UInt32) : a.entries[i].due = .fixed (0 + delay) := by
      have hboth := (h.rearm delay 0).symm.trans ((actsAt_of_place hj).rearm delay 0)
      have hat := congrArg (·[i]?) hboth
      simp only [List.getElem?_modify, List.getElem?_eq_getElem hi, if_neg hji] at hat
      exact (congrArg Entry.due (Option.some.inj hat)).symm
    have hsame := (hdue 0).symm.trans (hdue 1)
    cases hsame

/-! ## Registrations -/

/-- An agenda with the registrations of its entries, counted from zero. -/
structure Roll (capacity : Nat) where
  agenda : Agenda capacity := .empty
  /-- The number of the registration of each entry. -/
  numbers : List Nat := []
  /-- The number of the next registration. -/
  count : Nat := 0

namespace Roll

/-- A registration adds its number, unless the table is full. -/
def register (r : Roll capacity) (chore : Chore) (delay : UInt32) : Roll capacity :=
  match r.agenda.register chore delay with
  | (agenda, some _) => ⟨agenda, r.numbers ++ [r.count], r.count + 1⟩
  | (agenda, none) => { r with agenda }

/-- An entry that is cancelled takes its number along. -/
def cancel (r : Roll capacity) (token : Token) (now : UInt32) : Roll capacity where
  agenda := r.agenda.complete token .cancel now
  numbers :=
    match r.agenda.place token with
    | some i => r.numbers.eraseIdx i
    | none => r.numbers
  count := r.count

/-- The roll after a request. -/
def serve (r : Roll capacity) : Request → Roll capacity
  | .register chore delay => r.register chore delay
  | .complete token .cancel now => r.cancel token now
  | request => { r with agenda := r.agenda.serve request }

/-- The roll after requests, from an empty agenda on. -/
def after (requests : List Request) : Roll capacity := requests.foldl serve {}

theorem agenda_serve (r : Roll capacity) (request : Request) :
    (r.serve request).agenda = r.agenda.serve request := by
  cases request with
  | register chore delay =>
    rw [serve, register, Agenda.serve]
    obtain ⟨b, hb, -⟩ | hfull := r.agenda.register_cases chore delay
    · rw [hb]
    · rw [hfull]
  | complete token rearm now => cases rearm <;> rfl
  | _ => rfl

/-- The numbers are kept beside the agenda, which runs as it does without them. -/
theorem agenda_after (requests : List Request) :
    (after requests : Roll capacity).agenda = requests.foldl Agenda.serve .empty := by
  have hfold : ∀ r : Roll capacity,
      (requests.foldl serve r).agenda = requests.foldl Agenda.serve r.agenda := by
    induction requests with
    | nil => exact fun r => rfl
    | cons request rest ih => exact fun r => (ih _).trans (by rw [agenda_serve]; rfl)
  exact hfold {}

/-- The tokens are the numbers of the registrations, which count up, on eight bits. -/
structure Sound (r : Roll capacity) : Prop where
  tokens : r.agenda.entries.map Entry.token = r.numbers.map UInt8.ofNat
  next : r.agenda.nextToken = UInt8.ofNat r.count
  ascending : (r.numbers ++ [r.count]).Pairwise (· < ·)

namespace Sound

variable {r : Roll capacity}

/-- A request that registers and cancels nothing keeps the tokens, and so the roll sound. -/
theorem of_tokens_eq (h : Sound r) {other : Agenda capacity}
    (htokens : other.entries.map Entry.token = r.agenda.entries.map Entry.token)
    (hnext : other.nextToken = r.agenda.nextToken) : Sound { r with agenda := other } :=
  ⟨htokens.trans h.tokens, hnext.trans h.next, h.ascending⟩

theorem register (h : Sound r) (chore : Chore) (delay : UInt32) :
    Sound (r.register chore delay) := by
  unfold Roll.register
  obtain ⟨b, hb, hentries, hnext⟩ | hfull := r.agenda.register_cases chore delay
  · rw [hb]
    constructor
    case tokens =>
      dsimp only
      rw [hentries, List.map_append, List.map_append, h.tokens]
      exact congrArg (_ ++ [·]) h.next
    case next =>
      dsimp only
      rw [hnext, h.next, UInt8.ofNat_add]
      rfl
    case ascending =>
      refine List.pairwise_append.2 ⟨h.ascending, List.pairwise_singleton _ _, ?_⟩
      -- the numbers so far are below the next one, and that one below the one after it
      intro m hm n hn
      obtain rfl := List.mem_singleton.1 hn
      rcases List.mem_append.1 hm with hm | hm
      · have hlt := (List.pairwise_append.1 h.ascending).2.2 m hm r.count
          (List.mem_singleton_self _)
        exact Nat.lt_succ_of_lt hlt
      · rw [List.mem_singleton.1 hm]
        exact Nat.lt_succ_self _
  · rw [hfull]
    exact h

theorem cancel (h : Sound r) (token : Token) (now : UInt32) : Sound (r.cancel token now) := by
  have hentries := r.agenda.entries_cancel token now
  unfold Roll.cancel
  cases hplace : r.agenda.place token with
  | none =>
    rw [hplace] at hentries
    exact ⟨hentries ▸ h.tokens, h.next, h.ascending⟩
  | some i =>
    rw [hplace] at hentries
    constructor
    case tokens =>
      dsimp only
      rw [hentries, ← List.eraseIdx_map, ← List.eraseIdx_map, h.tokens]
    case next => exact h.next
    case ascending =>
      exact h.ascending.sublist ((List.eraseIdx_sublist r.numbers i).append_right _)

theorem serve (h : Sound r) (request : Request) : Sound (r.serve request) := by
  have hchanged (token : Token) {change : Entry → Entry} (hc : ∀ e, (change e).token = e.token) :=
    map_changeFirst (·.token == token) hc r.agenda.entries
  have hanchored (now : UInt32) :
      (r.agenda.anchor now).entries.map Entry.token = r.agenda.entries.map Entry.token := by
    simp [anchor]
  cases request with
  | register chore delay => exact h.register chore delay
  | wantSoon token => exact h.of_tokens_eq (hchanged token fun _ => rfl) rfl
  | poll now => exact h.of_tokens_eq (hanchored now) rfl
  | nextDeadline now => exact h.of_tokens_eq (hanchored now) rfl
  | complete token rearm now =>
    cases rearm with
    | after delay => exact h.of_tokens_eq (hchanged token fun _ => rfl) rfl
    | cancel => exact h.cancel token now

end Sound

theorem sound_after (requests : List Request) : Sound (after requests : Roll capacity) := by
  have hfold : ∀ r : Roll capacity, Sound r → Sound (requests.foldl serve r) := by
    induction requests with
    | nil => exact fun r h => h
    | cons request rest ih => exact fun r h => ih _ (h.serve request)
  exact hfold {} ⟨rfl, rfl, List.pairwise_singleton _ _⟩

/-- Two registrations have one token exactly if they are a multiple of 256 apart. -/
theorem token_eq_iff {m n : Nat} : UInt8.ofNat m = UInt8.ofNat n ↔ m % 256 = n % 256 := by
  rw [← UInt8.toNat_inj, UInt8.toNat_ofNat', UInt8.toNat_ofNat']

namespace Sound

variable {r : Roll capacity}

theorem getElem?_token (h : Sound r) (i : Nat) :
    (r.agenda.entries[i]?).map Entry.token = (r.numbers[i]?).map UInt8.ofNat := by
  rw [← List.getElem?_map, ← List.getElem?_map, h.tokens]

theorem nodup_iff (h : Sound r) :
    (r.agenda.entries.map Entry.token).Nodup ↔ r.numbers.Pairwise (· % 256 ≠ · % 256) := by
  rw [h.tokens, List.nodup_iff_pairwise_ne, List.pairwise_map]
  simp only [ne_eq, token_eq_iff]

theorem actsAt_iff (h : Sound r) {i n : Nat} (hn : r.numbers[i]? = some n) :
    r.agenda.ActsAt (UInt8.ofNat n) i ↔ ∀ m ∈ r.numbers.take i, m % 256 ≠ n % 256 := by
  obtain ⟨e, he, htoken⟩ : ∃ e, r.agenda.entries[i]? = some e ∧ e.token = UInt8.ofNat n := by
    have hat := h.getElem?_token i
    rw [hn, Option.map_some, Option.map_eq_some_iff] at hat
    exact hat
  obtain ⟨hi, rfl⟩ := List.getElem?_eq_some_iff.1 he
  rw [Agenda.actsAt_iff hi htoken, place_eq_some_iff]
  constructor
  · rintro ⟨_, _, hfirst⟩ m hm heq
    obtain ⟨j, hj, rfl⟩ := List.mem_take_iff_getElem.1 hm
    have hj' : j < i := by omega
    -- an older entry with this token would have come first
    have hat := h.getElem?_token j
    rw [List.getElem?_eq_getElem (by omega), List.getElem?_eq_getElem (by omega), Option.map_some,
      Option.map_some, Option.some_inj] at hat
    exact hfirst j hj' (hat.trans (token_eq_iff.2 heq))
  · intro hfirst
    refine ⟨hi, htoken, fun j hj heq => ?_⟩
    have hat := h.getElem?_token j
    rw [List.getElem?_eq_getElem (by omega), Option.map_some, eq_comm,
      Option.map_eq_some_iff] at hat
    obtain ⟨m, hm, hmtoken⟩ := hat
    obtain ⟨hjlt, rfl⟩ := List.getElem?_eq_some_iff.1 hm
    refine hfirst _ (List.mem_take_iff_getElem.2 ⟨j, by omega, rfl⟩) ?_
    exact token_eq_iff.1 (hmtoken.trans heq)

theorem nodup_of_recent (h : Sound r) (hrecent : ∀ n ∈ r.numbers, r.count ≤ n + 256) :
    (r.agenda.entries.map Entry.token).Nodup := by
  obtain ⟨hascending, -, hbelow⟩ := List.pairwise_append.1 h.ascending
  rw [h.nodup_iff]
  -- two different numbers less than 256 apart
  refine hascending.imp_of_mem fun {m n} hm hn hlt => ?_
  have hcount := hbelow n hn r.count (List.mem_singleton_self _)
  have hmrecent := hrecent m hm
  omega

end Sound

/-- **The tokens of a run.** The tokens of the entries are the numbers of their registrations on
eight bits. So no two entries carry one token exactly if no two of them were registered a multiple
of 256 registrations apart, as when all are among the last 256; and what is asked with the token of
an entry is done to that entry exactly if no older one was registered so. -/
theorem nodup_tokens_iff (requests : List Request) :
    let r : Roll capacity := after requests
    r.agenda = requests.foldl Agenda.serve .empty ∧
      r.agenda.entries.map Entry.token = r.numbers.map UInt8.ofNat ∧
      ((r.agenda.entries.map Entry.token).Nodup ↔ r.numbers.Pairwise (· % 256 ≠ · % 256)) ∧
      ((∀ n ∈ r.numbers, r.count ≤ n + 256) → (r.agenda.entries.map Entry.token).Nodup) ∧
      ∀ i n, r.numbers[i]? = some n →
        (r.agenda.ActsAt (UInt8.ofNat n) i ↔ ∀ m ∈ r.numbers.take i, m % 256 ≠ n % 256) := by
  intro r
  have hsound : Sound r := sound_after requests
  exact ⟨agenda_after requests, hsound.tokens, hsound.nodup_iff, hsound.nodup_of_recent,
    fun _ _ hn => hsound.actsAt_iff hn⟩

/-- An idle check stays registered while a bar redraw is registered and cancelled so often, and
registered once more. -/
def turnover (turns : Nat) : List Request :=
  .register .idleCheck 1000 ::
    (List.range turns).flatMap (fun turn =>
      [.register .barRedraw 250, .complete (UInt8.ofNat (turn + 1)) .cancel 0]) ++
    [.register .barRedraw 250]

/-- After 256 registrations the token of the last one stands for its own entry. -/
theorem actsAt_turnover_254 :
    (∀ n ∈ (after (turnover 254) : Roll 2).numbers,
      (after (turnover 254) : Roll 2).count ≤ n + 256) ∧
    ((after (turnover 254) : Roll 2).agenda.entries.map Entry.token).Nodup ∧
    (after (turnover 254) : Roll 2).numbers[1]? = some 255 ∧
    (after (turnover 254) : Roll 2).agenda.ActsAt 255 1 := by
  have hrun := @nodup_tokens_iff 2 (turnover 254)
  have hrecent : ∀ n ∈ (after (turnover 254) : Roll 2).numbers,
      (after (turnover 254) : Roll 2).count ≤ n + 256 := by decide +kernel
  have hlast : (after (turnover 254) : Roll 2).numbers[1]? = some 255 := by decide +kernel
  refine ⟨hrecent, hrun.2.2.2.1 hrecent, hlast, (hrun.2.2.2.2 1 255 hlast).2 ?_⟩
  decide +kernel

/-- One turn later the last registration is answered with the token of the idle check, which is
still registered, and what is asked with it is done to the idle check. -/
theorem not_nodup_tokens_turnover_255 :
    ¬(((turnover 255).foldl Agenda.serve (.empty : Agenda 2)).entries.map Entry.token).Nodup ∧
      ((turnover 255).dropLast.foldl Agenda.serve (.empty : Agenda 2)).entries.map Entry.token =
        [0] ∧
      (((turnover 255).dropLast.foldl Agenda.serve (.empty : Agenda 2)).register .barRedraw
        250).2 = some 0 ∧
      (((turnover 255).foldl Agenda.serve (.empty : Agenda 2)).wantSoon 0).entries.map
        (fun e => (e.chore, e.soon)) = [(.idleCheck, true), (.barRedraw, false)] := by
  decide +kernel

end Roll

end Agenda

end StatusPanel
