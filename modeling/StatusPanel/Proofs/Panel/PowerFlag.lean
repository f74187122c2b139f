import Mathlib.Data.List.Induction
import StatusPanel.Proofs.Panel.Flush

/-!
# The power flag

The driver notes whether the panel is on, and does not send a power command that the flag makes
needless. The panel itself is in the state that the last command gave it which the bus accepted. The
two part when a bring-up of a panel that is on is refused on the way: its first command switched the
panel off, and nothing was noted. They meet again at the next power command that is sent.

## Main definitions

* `Panel.switching?`: what a write does to the power of the panel
* `Panel.switchings`, `Panel.isLit`: what the accepted writes did, and where they left the panel
* `Panel.CutShort`: a bring-up that is refused once it switched the panel off

## Main results

* `Panel.serve_cases`: what a call sends to switch the panel, and what it notes
* `Panel.powered_eq_isLit_iff`: the flag is right but after a bring-up that was cut short
-/

namespace StatusPanel.Panel

/-! ## What the bus accepted -/

/-- What a write does to the power of the panel, if anything. -/
def switching? (bytes : List UInt8) : Option Bool :=
  if bytes = command displayOn then some true
  else if bytes = command displayOff then some false
  else none

/-- What several writes do to the power of the panel, in order. -/
def switchingsOf (writes : List Write) : List Bool := writes.filterMap fun w => switching? w.bytes

/-- What the accepted writes did to the power of the panel, in order. -/
def switchings (p : Panel) : List Bool := switchingsOf p.sent

/-- Whether the panel is on: the last accepted command that switched it, switched it on. A panel
that was never switched is off. -/
def isLit (p : Panel) : Bool := p.switchings.getLast?.getD false

theorem switchingsOf_append (ws vs : List Write) :
    switchingsOf (ws ++ vs) = switchingsOf ws ++ switchingsOf vs :=
  List.filterMap_append

theorem switchingsOf_eq_nil {writes : List Write}
    (h : ∀ w ∈ writes, switching? w.bytes = none) : switchingsOf writes = [] :=
  List.filterMap_eq_nil_iff.2 h

/-- The writes that come to those of a panel come with what they do to its power. -/
theorem switchings_of_sent {p q : Panel} {writes : List Write} (h : q.sent = p.sent ++ writes) :
    q.switchings = p.switchings ++ switchingsOf writes := by
  rw [switchings, h, switchingsOf_append]
  rfl

theorem isLit_of_switchings {p : Panel} {earlier : List Bool} {on : Bool}
    (h : p.switchings = earlier ++ [on]) : p.isLit = on := by
  rw [isLit, h, List.getLast?_concat, Option.getD_some]

theorem isLit_congr {p q : Panel} (h : q.switchings = p.switchings) : q.isLit = p.isLit := by
  rw [isLit, isLit, h]

/-! ## What the calls send -/

theorem switching?_power (on : Bool) :
    switching? (command (if on then displayOn else displayOff)) = some on := by
  cases on <;> rfl

/-- The writes that send a page switch nothing. -/
theorem switching?_of_mem_pageSends {p : Panel} {page : Fin 8} {w : Write}
    (h : w ∈ p.pageSends page) : switching? w.bytes = none := by
  have hpages : ∀ page : Fin 8,
      switching? (command (0xB0 ||| UInt8.ofNat page.val)) = none := by decide
  obtain ⟨bytes, hbytes, rfl⟩ := List.mem_map.1 h
  dsimp only
  simp only [pageWrites, List.mem_cons, List.not_mem_nil, or_false] at hbytes
  obtain rfl | rfl | rfl | rfl := hbytes
  · exact hpages page
  · rfl
  · rfl
  · -- data stand behind another byte than commands do
    simp [switching?, command]

theorem Delivered.switchings_eq {p q : Panel} {pages : List (Fin 8)} {more : List Write}
    (h : Delivered p q pages more) (hmore : ∀ w ∈ more, switching? w.bytes = none) :
    q.switchings = p.switchings := by
  have hpages : switchingsOf (pages.flatMap p.pageSends) = [] := by
    refine switchingsOf_eq_nil fun w hw => ?_
    obtain ⟨page, -, hpage⟩ := List.mem_flatMap.1 hw
    exact switching?_of_mem_pageSends hpage
  have hsent := h.sent
  rw [List.append_assoc] at hsent
  rw [switchings_of_sent hsent, switchingsOf_append, hpages, switchingsOf_eq_nil hmore,
    List.append_nil, List.append_nil]

/-- A flush switches nothing. -/
theorem switchings_flush (p : Panel) : p.flush.1.switchings = p.switchings := by
  cases hready : p.ready with
  | false => rw [flush_of_not_ready hready]
  | true =>
    obtain ⟨q, ⟨hflush, hq⟩ | ⟨hflush, done, page, -, -, k, -, hq⟩⟩ := flush_cases hready
    · rw [hflush]
      exact hq.switchings_eq (by simp)
    · rw [hflush]
      exact hq.switchings_eq fun w hw => switching?_of_mem_pageSends (List.mem_of_mem_take hw)

@[simp] theorem powered_sendAll (p : Panel) (xs : List (List UInt8)) :
    (p.sendAll xs).1.powered = p.powered := by
  induction xs generalizing p with
  | nil => rfl
  | cons x xs ih => rw [sendAll, view_andThen powered _ ih, powered_send]

theorem powered_flushPage (p : Panel) (page : Fin 8) :
    (p.flushPage page).1.powered = p.powered := by
  unfold flushPage
  split
  · rw [view_andThen powered _ fun _ => rfl, powered_sendAll]
  · rfl

theorem powered_flush (p : Panel) : p.flush.1.powered = p.powered := by
  have hpages : ∀ (pages : List (Fin 8)) (p : Panel),
      (p.flushPages pages).1.powered = p.powered := by
    intro pages
    induction pages with
    | nil => exact fun _ => rfl
    | cons page rest ih =>
      intro p
      rw [flushPages, view_andThen powered _ ih, powered_flushPage]
  unfold flush whenReady
  split
  · exact hpages _ p
  · rfl

/-- A power command that is sent is accepted and noted, or refused and not noted. -/
theorem sendPower_cases (p : Panel) (on : Bool) :
    ((p.sendPower on).2 = .ok () ∧ (p.sendPower on).1.switchings = p.switchings ++ [on] ∧
        (p.sendPower on).1.powered = on) ∨
      ((p.sendPower on).2 ≠ .ok () ∧ (p.sendPower on).1.switchings = p.switchings ∧
        (p.sendPower on).1.powered = p.powered) := by
  unfold sendPower
  obtain ⟨bus, ⟨hsend, hbus⟩ | ⟨hsend, hbus⟩⟩ :=
    p.send_cases (command (if on then displayOn else displayOff))
  · rw [hsend, andThen_ok]
    refine Or.inl ⟨rfl, ?_, rfl⟩
    have hswitched : switchingsOf [⟨p.address, command (if on then displayOn else displayOff)⟩] =
        [on] := by
      simp only [switchingsOf, List.filterMap_cons, switching?_power, List.filterMap_nil]
    rw [← hswitched]
    exact switchings_of_sent hbus
  · rw [hsend, andThen_error]
    exact Or.inr ⟨by simp, congrArg switchingsOf hbus, rfl⟩

/-- The first command of the configuration switches the panel off, and the others switch nothing. -/
theorem switchingsOf_take_configuration (address : UInt8) (k : Nat) :
    switchingsOf (((configuration.map command).map (Write.mk address)).take (k + 1)) = [false] := by
  have hrest : configuration.tail.all (fun c => (switching? (command c)).isNone) = true := by decide
  have hconfiguration : (configuration.map command).map (Write.mk address) =
      ⟨address, command displayOff⟩ ::
        (configuration.tail.map command).map (Write.mk address) := rfl
  have hoff : switching? (command displayOff) = some false := rfl
  rw [hconfiguration, List.take_succ_cons, switchingsOf, List.filterMap_cons, hoff]
  refine congrArg (false :: ·) (switchingsOf_eq_nil fun w hw => ?_)
  have hmem := List.mem_of_mem_take hw
  rw [List.map_map] at hmem
  obtain ⟨c, hc, rfl⟩ := List.mem_map.1 hmem
  exact Option.isNone_iff_eq_none.1 (List.all_eq_true.1 hrest c hc)

/-- The configuration switches the panel off, unless its first command is refused. It notes
nothing. -/
theorem configure_cases (p : Panel) :
    let r := p.sendAll (configuration.map command)
    r.1.powered = p.powered ∧ (r.1.switchings = p.switchings ++ [false] ∨
      (r.2 ≠ .ok () ∧ r.1.switchings = p.switchings)) := by
  intro r
  refine ⟨powered_sendAll p _, ?_⟩
  obtain ⟨bus, ⟨hsend, hbus⟩ | ⟨hsend, k, -, hbus⟩⟩ := p.sendAll_cases (configuration.map command)
  · left
    have hall : ((configuration.map command).map (Write.mk p.address)).take (20 + 1) =
        (configuration.map command).map (Write.mk p.address) := rfl
    rw [← switchingsOf_take_configuration p.address 20, hall]
    have hr : r.1.sent = p.sent ++ (configuration.map command).map (Write.mk p.address) := by
      unfold r
      rw [hsend]
      exact hbus
    exact switchings_of_sent hr
  · have hr : r = ({ p with bus }, .error .communication) := hsend
    rw [hr]
    cases k with
    | zero =>
      rw [List.take_zero, List.append_nil] at hbus
      exact Or.inr ⟨by simp, congrArg switchingsOf hbus⟩
    | succ k =>
      left
      rw [← switchingsOf_take_configuration p.address k]
      exact switchings_of_sent hbus

/-- A bring-up switches the panel off and on again, which it notes. When it is refused on the way
nothing is noted, and the panel is off already unless the very first command was refused. -/
theorem bringUp_cases (p : Panel) :
    (p.bringUp.2 = .ok () ∧ p.bringUp.1.switchings = p.switchings ++ [false] ++ [true] ∧
        p.bringUp.1.powered = true) ∨
      (p.bringUp.2 ≠ .ok () ∧ p.bringUp.1.powered = p.powered ∧
        (p.bringUp.1.switchings = p.switchings ++ [false] ∨
          p.bringUp.1.switchings = p.switchings)) := by
  obtain ⟨hpowered, hswitchings⟩ := p.configure_cases
  unfold bringUp
  generalize p.sendAll (configuration.map command) = sent at hpowered hswitchings ⊢
  obtain ⟨q, fault | ok⟩ := sent
  · rw [andThen_error]
    exact Or.inr ⟨by simp, hpowered, hswitchings.imp id And.right⟩
  · -- configured: the flush switches nothing, and only the last command switches the panel on
    have hoff : q.switchings = p.switchings ++ [false] :=
      hswitchings.resolve_right fun h => h.1 rfl
    rw [andThen_ok]
    have hflush := switchings_flush { q with ready := true, canvas := .blank }
    have hnoted := powered_flush { q with ready := true, canvas := .blank }
    generalize Panel.flush { q with ready := true, canvas := .blank } = sent at hflush hnoted ⊢
    have hcleared : sent.1.switchings = p.switchings ++ [false] := hflush.trans hoff
    have hkept : sent.1.powered = p.powered := hnoted.trans hpowered
    obtain ⟨r, fault | ok⟩ := sent
    · rw [andThen_error]
      exact Or.inr ⟨by simp, hkept, Or.inl hcleared⟩
    · rw [andThen_ok]
      obtain ⟨hok, hon, hlit⟩ | ⟨hrefused, hsame, hdark⟩ := r.sendPower_cases true
      · exact Or.inl ⟨hok, hon.trans (congrArg (· ++ [true]) hcleared), hlit⟩
      · exact Or.inr ⟨hrefused, hdark.trans hkept, Or.inl (hsame.trans hcleared)⟩

/-- A power command switches the panel and notes it, or does neither. It does neither when it is
refused, and answers that it is done when the flag agrees already. -/
theorem power_cases (p : Panel) (on : Bool) :
    ((p.power on).2 = .ok () ∧ (p.power on).1.switchings = p.switchings ++ [on] ∧
        (p.power on).1.powered = on ∧ on ≠ p.powered) ∨
      ((p.power on).1.switchings = p.switchings ∧ (p.power on).1.powered = p.powered ∧
        ((p.power on).2 = .ok () → on = p.powered)) := by
  unfold power whenReady
  split
  · dsimp only
    split
    case isTrue hsame => exact Or.inr ⟨rfl, rfl, fun _ => hsame⟩
    case isFalse hother =>
      obtain ⟨hok, hon, hnoted⟩ | ⟨hrefused, hswitchings, hpowered⟩ := p.sendPower_cases on
      · exact Or.inl ⟨hok, hon, hnoted, hother⟩
      · exact Or.inr ⟨hswitchings, hpowered, fun hok => absurd hok hrefused⟩
  · exact Or.inr ⟨rfl, rfl, fun hok => nomatch hok⟩

/-! ## Bring-ups that were cut short -/

/-- The bring-up of a panel that is noted as on is refused once it switched the panel off. -/
structure CutShort (p : Panel) : Prop where
  powered : p.powered = true
  refused : p.bringUp.2 ≠ .ok ()
  switchings : p.bringUp.1.switchings = p.switchings ++ [false]

/-- What a call sends to switch the panel, and what it notes: nothing at all, or the state that it
gave the panel last, or else it is a bring-up that was refused once the panel was off. -/
theorem serve_cases (p : Panel) (request : Request) :
    let q := (p.serve request).1
    (q.switchings = p.switchings ∧ q.powered = p.powered) ∨
      (∃ sent on, q.switchings = p.switchings ++ sent ++ [on] ∧ q.powered = on ∧
        (request = .bringUp → sent = [false])) ∨
      (request = .bringUp ∧ p.bringUp.2 ≠ .ok () ∧ q.switchings = p.switchings ++ [false] ∧
        q.powered = p.powered) := by
  intro q
  cases request with
  | bringUp =>
    obtain ⟨-, hswitchings, hpowered⟩ | ⟨hrefused, hpowered, hoff | hsame⟩ := p.bringUp_cases
    · exact Or.inr (Or.inl ⟨[false], true, hswitchings, hpowered, fun _ => rfl⟩)
    · exact Or.inr (Or.inr ⟨rfl, hrefused, hoff, hpowered⟩)
    · exact Or.inl ⟨hsame, hpowered⟩
  | draw stroke =>
    left
    have hq : q = (p.draw stroke).1 := rfl
    obtain hdraw | ⟨fault, hdraw⟩ := p.draw_cases stroke
    · rw [hq, hdraw]
      exact ⟨rfl, rfl⟩
    · rw [hq, hdraw]
      exact ⟨rfl, rfl⟩
  | power on =>
    obtain ⟨-, hon, hnoted, -⟩ | ⟨hswitchings, hpowered, -⟩ := p.power_cases on
    · refine Or.inr (Or.inl ⟨[], on, ?_, hnoted, fun h => nomatch h⟩)
      rw [List.append_nil]
      exact hon
    · exact Or.inl ⟨hswitchings, hpowered⟩
  | flush => exact Or.inl ⟨p.switchings_flush, p.powered_flush⟩

theorem switchings_prefix_serve (p : Panel) (request : Request) :
    p.switchings <+: (p.serve request).1.switchings := by
  obtain ⟨h, -⟩ | ⟨sent, on, h, -⟩ | ⟨-, -, h, -⟩ := p.serve_cases request
  · exact ⟨[], by rw [List.append_nil, h]⟩
  · rw [h, List.append_assoc]
    exact List.prefix_append _ _
  · rw [h]
    exact List.prefix_append _ _

/-! ## Runs -/

section Runs

variable (accepts : Nat → Bool) (address : UInt8)

theorem after_concat (requests : List Request) (request : Request) :
    after accepts address (requests ++ [request]) =
      ((after accepts address requests).serve request).1 := by
  rw [after, after, List.foldl_append]
  rfl

theorem switchings_prefix_after (earlier later : List Request) :
    (after accepts address earlier).switchings <+:
      (after accepts address (earlier ++ later)).switchings := by
  -- Induction on the later calls from the last one on: each of them only adds to what was sent.
  induction later using List.reverseRecOn with
  | nil => exact ⟨[], by rw [List.append_nil, List.append_nil]⟩
  | append_singleton later request ih =>
    rw [← List.append_assoc, after_concat]
    exact ih.trans (switchings_prefix_serve _ request)

/-- Since every bring-up that was cut short the panel was switched again. -/
def Recovered (requests : List Request) : Prop :=
  ∀ earlier later, requests = earlier ++ .bringUp :: later →
    (after accepts address earlier).CutShort →
    (after accepts address (earlier ++ [.bringUp])).switchings ≠
      (after accepts address requests).switchings

theorem recovered_nil : Recovered accepts address [] := by
  intro earlier later hsplit
  simp at hsplit

/-- A call cuts a bring-up short, or leaves those before it as they are unless it switches the
panel. -/
theorem recovered_concat (requests : List Request) (request : Request) :
    Recovered accepts address (requests ++ [request]) ↔
      ((after accepts address (requests ++ [request])).switchings =
          (after accepts address requests).switchings → Recovered accepts address requests) ∧
        ¬(request = .bringUp ∧ (after accepts address requests).CutShort) := by
  constructor
  · intro h
    constructor
    · rintro hsame earlier later rfl hcut
      rw [← hsame]
      exact h earlier (later ++ [request]) (by simp) hcut
    · rintro ⟨rfl, hcut⟩
      exact h requests [] rfl hcut rfl
  · rintro ⟨hbefore, hlast⟩ earlier later hsplit hcut
    -- the bring-up is this call, or one of those before it
    rcases List.eq_nil_or_concat later with rfl | ⟨middle, last, rfl⟩
    · obtain ⟨rfl, hrequest⟩ := List.append_inj' hsplit rfl
      obtain ⟨rfl, -⟩ := List.cons.inj hrequest
      exact absurd ⟨rfl, hcut⟩ hlast
    · rw [List.concat_eq_append, ← List.cons_append, ← List.append_assoc] at hsplit
      obtain ⟨rfl, -⟩ := List.append_inj' hsplit rfl
      intro heq
      have hgrown := switchings_prefix_after accepts address (earlier ++ [.bringUp]) middle
      have hlonger :=
        switchings_prefix_after accepts address (earlier ++ .bringUp :: middle) [request]
      rw [List.append_assoc, List.singleton_append] at hgrown
      rw [← heq] at hlonger
      have hsame := hgrown.eq_of_length_le hlonger.length_le
      exact hbefore (heq.symm.trans hsame) earlier middle rfl hcut hsame

/-- In every run a panel that is on is noted as on, and the flag is right if the run recovered. -/
theorem powered_eq_isLit_after (requests : List Request) :
    let p := after accepts address requests
    (p.isLit = true → p.powered = true) ∧
      (p.powered = p.isLit ↔ Recovered accepts address requests) := by
  -- Induction on the calls from the last one on, by what it sends and notes.
  induction requests using List.reverseRecOn with
  | nil => exact ⟨fun h => h, fun _ => recovered_nil accepts address, fun _ => rfl⟩
  | append_singleton requests request ih =>
    intro p
    have hrecovered := recovered_concat accepts address requests request
    have hp : p = ((after accepts address requests).serve request).1 := after_concat ..
    rw [← show p = after accepts address (requests ++ [request]) from rfl] at hrecovered
    generalize after accepts address requests = q at ih hp hrecovered
    obtain ⟨hlit, hflag⟩ := ih
    rw [hrecovered]
    have hcases := q.serve_cases request
    rw [← hp] at hcases
    obtain ⟨hswitchings, hpowered⟩ | ⟨sent, on, hswitchings, hpowered, hup⟩ |
      ⟨hrequest, hrefused, hswitchings, hpowered⟩ := hcases
    · -- nothing was sent: the panel is as it was, and no bring-up was cut short
      have hsame : p.isLit = q.isLit := isLit_congr hswitchings
      rw [hsame, hpowered, hflag]
      refine ⟨hlit, fun h => ⟨fun _ => h, ?_⟩, fun h => h.1 hswitchings⟩
      rintro ⟨rfl, hcut⟩
      have hlonger := hcut.switchings
      rw [← show p = q.bringUp.1 from hp, hswitchings] at hlonger
      simp at hlonger
    · -- the last switching is noted, so that the flag is right whatever was before
      have hon : p.isLit = on := isLit_of_switchings hswitchings
      rw [hon, hpowered]
      refine ⟨id, fun _ => ⟨fun hsame => ?_, ?_⟩, fun _ => rfl⟩
      · rw [hswitchings] at hsame
        simp at hsame
      · rintro ⟨rfl, hcut⟩
        have hshort := hcut.switchings
        rw [← show p = q.bringUp.1 from hp, hswitchings, hup rfl] at hshort
        simp at hshort
    · -- the panel is off, and the flag as it was: it is right only if it said so
      have hoff : p.isLit = false := isLit_of_switchings hswitchings
      rw [hoff, hpowered]
      refine ⟨fun h => (nomatch h), fun hdark => ⟨fun hsame => ?_, ?_⟩, fun h => ?_⟩
      · rw [hswitchings] at hsame
        simp at hsame
      · rintro ⟨-, hcut⟩
        rw [hcut.powered] at hdark
        cases hdark
      · rw [← Bool.not_eq_true]
        intro hpowered
        refine h.2 ⟨hrequest, hpowered, hrefused, ?_⟩
        subst hrequest
        rw [← hswitchings, hp]
        rfl

/-- **The power flag.** In every run, whatever writes the bus accepts, a panel that is on is noted
as on. The flag is right exactly when the panel was switched again since every bring-up that was
refused once it had switched off a panel noted as on. A power command that is answered as done
leaves the flag as commanded; it leaves the panel so as well, but for a command to switch on while
the flag is wrong. -/
theorem powered_eq_isLit_iff (requests : List Request) :
    let p := after accepts address requests
    (p.isLit = true → p.powered = true) ∧
    (p.powered = p.isLit ↔ Recovered accepts address requests) ∧
    ∀ on, (p.power on).2 = .ok () → (p.power on).1.powered = on ∧
      ((p.power on).1.isLit = on ↔ on = false ∨ p.powered = p.isLit) := by
  intro p
  obtain ⟨hlit, hflag⟩ := powered_eq_isLit_after accepts address requests
  refine ⟨hlit, hflag, fun on hok => ?_⟩
  obtain ⟨-, hswitchings, hnoted, hother⟩ | ⟨hswitchings, hpowered, hsame⟩ := p.power_cases on
  · -- the command was sent: the flag said otherwise
    have hon : (p.power on).1.isLit = on := isLit_of_switchings hswitchings
    refine ⟨hnoted, fun _ => ?_, fun _ => hon⟩
    by_contra hwrong
    obtain ⟨htrue, hne⟩ := not_or.1 hwrong
    rw [Bool.not_eq_false] at htrue
    have hdark : p.powered = false := by
      rw [← Bool.not_eq_true, ← htrue]
      exact hother.symm
    have hoff : p.isLit = false := by
      rw [← Bool.not_eq_true]
      intro hon
      rw [hlit hon] at hdark
      cases hdark
    exact hne (hdark.trans hoff.symm)
  · -- nothing was sent: the panel is as it was, and a panel that is noted as off is off
    obtain rfl := hsame hok
    have hkept : (p.power p.powered).1.isLit = p.isLit := isLit_congr hswitchings
    rw [hkept]
    refine ⟨hpowered, fun h => Or.inr h.symm, ?_⟩
    rintro (hoff | hright)
    · rw [hoff, ← Bool.not_eq_true]
      intro hon
      rw [hlit hon] at hoff
      cases hoff
    · exact hright.symm

end Runs

/-- A panel that is brought up twice. -/
def broughtUpTwice : List Request := [.bringUp, .bringUp]

/-- On a bus that accepts the first bring-up and one write more, the second one is cut short. The
panel is off and noted as on; a command to switch it off is sent all the same, after which the flag
is right. -/
theorem powered_eq_isLit_broughtUpTwice :
    let p := after (· != 55) 0x3C broughtUpTwice
    p.powered ≠ p.isLit ∧ ¬Recovered (· != 55) 0x3C broughtUpTwice ∧
      (p.power false).2 = .ok () ∧ (p.power false).1.powered = false ∧
      (p.power false).1.isLit = false := by
  intro p
  obtain ⟨-, hflag, hcommand⟩ := powered_eq_isLit_iff (· != 55) 0x3C broughtUpTwice
  have hwrong : p.powered ≠ p.isLit := by decide +kernel
  have hok : (p.power false).2 = .ok () := by decide +kernel
  obtain ⟨hnoted, hlit⟩ := hcommand false hok
  exact ⟨hwrong, fun h => hwrong (hflag.2 h), hok, hnoted, hlit.2 (Or.inl rfl)⟩

/-- The bring-up that was cut short leaves the flag wrong: the last command that was accepted
switched the panel off. A command to switch it on is then answered as done, and nothing is sent. -/
theorem not_powered_eq_isLit_broughtUpTwice :
    let p := after (· != 55) 0x3C broughtUpTwice
    ¬(p.powered = true ↔ p.isLit = true) ∧ p.switchings.getLast? = some false ∧
      (p.power true).2 = .ok () ∧ (p.power true).1.isLit = false ∧
      (p.power true).1.sent = p.sent := by
  intro p
  have hnoted : p.powered = true := by decide +kernel
  have hoff : p.switchings.getLast? = some false := by decide +kernel
  have hready : p.ready = true := by decide +kernel
  have hdone : p.power true = (p, .ok ()) := by
    rw [power, whenReady_of_ready hready, hnoted, if_pos rfl]
  have hdark : p.isLit = false := by rw [isLit, hoff, Option.getD_some]
  rw [hdone]
  refine ⟨fun h => ?_, hoff, rfl, hdark, rfl⟩
  rw [hdark] at h
  cases h.1 hnoted

end StatusPanel.Panel
