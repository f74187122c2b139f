import StatusPanel.Proofs.Panel.Memory

/-!
# Flushes

A flush sends the pages that are to be sent, from the top, and notes each of them as sent once all
its writes were accepted. A flush that is refused on the way leaves the page it was at, and those
after it, to the next one. So whatever the bus refuses, and whatever was called, the memory of the
panel holds every page that is not to be sent.

## Main definitions

* `Canvas.dirtyPages`: the pages that are to be sent
* `Memory.visible`: the visible bytes of a page
* `Panel.Request`, `Panel.after`: a call, and the panel after calls
* `Panel.pageSends`: the writes that send a page

## Main results

* `Panel.flush_cases`: what a flush sends, and what it leaves to be sent
* `Panel.mirrors_after`: in every run the memory holds the pages that are not to be sent
* `Panel.visible_memory_after`: the memory and the flushes of every run
-/

namespace StatusPanel

/-! ## Pages -/

namespace Canvas

/-- The pages that are to be sent, from the top. -/
def dirtyPages (c : Canvas) : List (Fin 8) := (List.finRange 8).filter fun page => c.isDirty page

theorem mem_dirtyPages {c : Canvas} {page : Fin 8} :
    page ∈ c.dirtyPages ↔ c.isDirty page = true := by
  simp [dirtyPages]

theorem ascending_dirtyPages (c : Canvas) : c.dirtyPages.Pairwise (· < ·) :=
  (List.pairwise_lt_finRange 8).sublist List.filter_sublist

theorem page_eq_of_bytes_eq {c d : Canvas} (h : c.bytes = d.bytes) : c.page = d.page := by
  unfold page
  rw [h]

/-- Pages that are no longer to be sent are taken from the top. -/
theorem dirtyPages_of_sent {c d : Canvas} {sent rest : List (Fin 8)}
    (hc : c.dirtyPages = sent ++ rest)
    (hd : ∀ page : Fin 8, d.isDirty page = true ↔ c.isDirty page = true ∧ page ∉ sent) :
    d.dirtyPages = rest := by
  -- the pages ascend, so none of those sent is among the rest
  have hdisjoint : ∀ page ∈ rest, page ∉ sent := by
    intro page hrest hsent
    have hascending := c.ascending_dirtyPages
    rw [hc, List.pairwise_append] at hascending
    exact Fin.lt_irrefl page (hascending.2.2 page hsent page hrest)
  have hfilter : d.dirtyPages = c.dirtyPages.filter (· ∉ sent) := by
    rw [dirtyPages, dirtyPages, List.filter_filter]
    refine List.filter_congr fun page _ => ?_
    rw [Bool.eq_iff_iff, hd, Bool.and_eq_true, decide_eq_true_eq, and_comm]
  rw [hfilter, hc, List.filter_append]
  have hsent : sent.filter (· ∉ sent) = [] := by
    rw [List.filter_eq_nil_iff]
    intro page hpage
    simpa using hpage
  have hrest : rest.filter (· ∉ sent) = rest := by
    rw [List.filter_eq_self]
    intro page hpage
    simpa using hdisjoint page hpage
  rw [hsent, hrest, List.nil_append]

end Canvas

/-- The visible bytes of a page, from left to right. -/
def Memory.visible (m : Memory) (page : Fin 8) : List UInt8 :=
  List.ofFn fun x : Fin 128 => m.bytes page.val (x.val + 2)

namespace Panel

/-! ## What is sent -/

/-- The writes that were sent to the panel. -/
def sent (p : Panel) : List Write := p.bus.accepted.toList

/-- The writes that send a page. -/
def pageSends (p : Panel) (page : Fin 8) : List Write :=
  (pageWrites page (p.canvas.page page)).map (Write.mk p.address)

theorem pageSends_congr {p q : Panel} (haddress : q.address = p.address)
    (hbytes : q.canvas.bytes = p.canvas.bytes) : q.pageSends = p.pageSends := by
  funext page
  rw [pageSends, pageSends, haddress, Canvas.page_eq_of_bytes_eq hbytes]

/-- Sending changes the bus only, which takes the bytes or refuses them. -/
theorem send_cases (p : Panel) (bytes : List UInt8) :
    ∃ bus, (p.send bytes = ({ p with bus }, .ok ()) ∧
        bus.accepted.toList = p.sent ++ [⟨p.address, bytes⟩]) ∨
      (p.send bytes = ({ p with bus }, .error .communication) ∧ bus.accepted.toList = p.sent) := by
  unfold send Bus.write
  split
  case h_1 bus haccepted =>
    refine ⟨bus, Or.inl ⟨rfl, ?_⟩⟩
    split at haccepted
    · obtain ⟨rfl, -⟩ := Prod.mk.inj haccepted
      exact Array.toList_push
    · cases haccepted
  case h_2 bus hrefused =>
    refine ⟨bus, Or.inr ⟨rfl, ?_⟩⟩
    split at hrefused
    · cases hrefused
    · obtain ⟨rfl, -⟩ := Prod.mk.inj hrefused
      rfl

/-- Of several byte strings all are sent, or those before the one that is refused. -/
theorem sendAll_cases (p : Panel) (writes : List (List UInt8)) :
    ∃ bus, (p.sendAll writes = ({ p with bus }, .ok ()) ∧
        bus.accepted.toList = p.sent ++ writes.map (Write.mk p.address)) ∨
      (p.sendAll writes = ({ p with bus }, .error .communication) ∧ ∃ k < writes.length,
        bus.accepted.toList = p.sent ++ (writes.map (Write.mk p.address)).take k) := by
  induction writes generalizing p with
  | nil => exact ⟨p.bus, Or.inl ⟨rfl, (List.append_nil _).symm⟩⟩
  | cons bytes rest ih =>
    rw [sendAll]
    obtain ⟨bus, ⟨hsend, hbus⟩ | ⟨hsend, hbus⟩⟩ := p.send_cases bytes
    · rw [hsend, andThen_ok]
      obtain ⟨last, ⟨hrest, hlast⟩ | ⟨hrest, k, hk, hlast⟩⟩ := ih { p with bus }
      · refine ⟨last, Or.inl ⟨hrest, ?_⟩⟩
        rw [hlast, sent, hbus, List.map_cons, List.append_assoc]
        rfl
      · refine ⟨last, Or.inr ⟨hrest, k + 1, Nat.succ_lt_succ hk, ?_⟩⟩
        rw [hlast, sent, hbus, List.map_cons, List.take_succ_cons, List.append_assoc]
        rfl
    · rw [hsend, andThen_error]
      refine ⟨bus, Or.inr ⟨rfl, 0, Nat.zero_lt_succ _, ?_⟩⟩
      rw [hbus, List.take_zero, List.append_nil]

/-- A panel after pages were sent and noted as sent, and some writes more. -/
structure Delivered (p q : Panel) (pages : List (Fin 8)) (more : List Write) : Prop where
  address : q.address = p.address
  bytes : q.canvas.bytes = p.canvas.bytes
  dirty (page : Fin 8) :
    q.canvas.isDirty page = true ↔ p.canvas.isDirty page = true ∧ page ∉ pages
  sent : q.sent = p.sent ++ pages.flatMap p.pageSends ++ more

namespace Delivered

variable {p q r : Panel} {pages others : List (Fin 8)} {more : List Write}

theorem refl (p : Panel) : Delivered p p [] [] := ⟨rfl, rfl, by simp, by simp⟩

theorem trans (h : Delivered p q pages []) (k : Delivered q r others more) :
    Delivered p r (pages ++ others) more where
  address := k.address.trans h.address
  bytes := k.bytes.trans h.bytes
  dirty page := by rw [k.dirty, h.dirty, List.mem_append, not_or, and_assoc]
  sent := by
    rw [k.sent, h.sent, pageSends_congr h.address h.bytes, List.flatMap_append, List.append_nil,
      List.append_assoc p.sent]

end Delivered

/-- A page that is to be sent is delivered, or refused at one of its four writes. -/
theorem flushPage_cases (p : Panel) {page : Fin 8} (hdirty : p.canvas.isDirty page = true) :
    ∃ q, (p.flushPage page = (q, .ok ()) ∧ Delivered p q [page] []) ∨
      (p.flushPage page = (q, .error .communication) ∧ ∃ k < 4,
        Delivered p q [] ((p.pageSends page).take k)) := by
  rw [flushPage, if_pos hdirty]
  obtain ⟨bus, ⟨hsend, hbus⟩ | ⟨hsend, k, hk, hbus⟩⟩ :=
    p.sendAll_cases (pageWrites page (p.canvas.page page))
  · rw [hsend, andThen_ok]
    refine ⟨_, Or.inl ⟨rfl, rfl, rfl, fun other => ?_, ?_⟩⟩
    · rw [Canvas.isDirty_markClean page.isLt other.isLt]
      simp [Fin.ext_iff]
    · rw [List.flatMap_singleton, List.append_nil]
      exact hbus
  · rw [hsend, andThen_error]
    refine ⟨_, Or.inr ⟨rfl, k, hk, rfl, rfl, by simp, ?_⟩⟩
    rw [List.flatMap_nil, List.append_nil]
    exact hbus

/-- Of several pages those that are to be sent are delivered, or those before the one that is
refused. -/
theorem flushPages_cases (p : Panel) {pages : List (Fin 8)} (hpages : pages.Nodup) :
    ∃ q, (p.flushPages pages = (q, .ok ()) ∧
        Delivered p q (pages.filter fun page : Fin 8 => p.canvas.isDirty page) []) ∨
      (p.flushPages pages = (q, .error .communication) ∧ ∃ done page rest,
        (pages.filter fun page : Fin 8 => p.canvas.isDirty page) = done ++ page :: rest ∧ ∃ k < 4,
          Delivered p q done ((p.pageSends page).take k)) := by
  -- Induction on the pages: the first one is clean, delivered or refused.
  induction pages generalizing p with
  | nil => exact ⟨p, Or.inl ⟨rfl, .refl p⟩⟩
  | cons page pages ih =>
    obtain ⟨hnew, hpages⟩ := List.nodup_cons.1 hpages
    rw [flushPages]
    cases hdirty : p.canvas.isDirty page with
    | false =>
      have hskip : p.flushPage page = (p, .ok ()) := by simp [flushPage, hdirty]
      rw [hskip, andThen_ok, List.filter_cons_of_neg (by simp [hdirty])]
      exact ih p hpages
    | true =>
      have hfilter : ((page :: pages).filter fun other : Fin 8 => p.canvas.isDirty other) =
          page :: pages.filter fun other : Fin 8 => p.canvas.isDirty other :=
        List.filter_cons_of_pos hdirty
      rw [hfilter]
      obtain ⟨q, ⟨hpage, hq⟩ | ⟨hpage, k, hk, hq⟩⟩ := p.flushPage_cases hdirty
      · rw [hpage, andThen_ok]
        -- the first page is done, and the others are to be sent as before
        have hothers : (pages.filter fun other : Fin 8 => q.canvas.isDirty other) =
            pages.filter fun other : Fin 8 => p.canvas.isDirty other := by
          refine List.filter_congr fun other hother => ?_
          have hne : other ≠ page := fun heq => hnew (heq ▸ hother)
          rw [Bool.eq_iff_iff, hq.dirty]
          simp [hne]
        obtain ⟨r, ⟨hrest, hr⟩ | ⟨hrest, done, next, rest, hsplit, k, hk, hr⟩⟩ := ih q hpages
        · rw [hothers] at hr
          exact ⟨r, Or.inl ⟨hrest, hq.trans hr⟩⟩
        · rw [hothers] at hsplit
          rw [pageSends_congr hq.address hq.bytes] at hr
          refine ⟨r, Or.inr ⟨hrest, page :: done, next, rest, ?_, k, hk, hq.trans hr⟩⟩
          rw [hsplit, List.cons_append]
      · rw [hpage, andThen_error]
        exact ⟨q, Or.inr ⟨rfl, [], page, _, rfl, k, hk, hq⟩⟩

/-- A flush of a panel that is ready delivers the pages that are to be sent, from the top, or those
before the one that is refused. -/
theorem flush_cases {p : Panel} (hr : p.ready = true) :
    ∃ q, (p.flush = (q, .ok ()) ∧ Delivered p q p.canvas.dirtyPages []) ∨
      (p.flush = (q, .error .communication) ∧ ∃ done page rest,
        p.canvas.dirtyPages = done ++ page :: rest ∧ ∃ k < 4,
          Delivered p q done ((p.pageSends page).take k)) := by
  rw [flush, whenReady_of_ready hr]
  exact p.flushPages_cases (List.nodup_finRange 8)

theorem delivered_of_ok {p : Panel} (hok : p.flush.2 = .ok ()) :
    Delivered p p.flush.1 p.canvas.dirtyPages [] := by
  have hr : p.ready = true := by
    refine Bool.not_eq_false _ ▸ fun hnot => ?_
    rw [flush_of_not_ready hnot] at hok
    cases hok
  obtain ⟨q, ⟨hflush, hq⟩ | ⟨hflush, -⟩⟩ := flush_cases hr
  · rw [hflush]
    exact hq
  · rw [hflush] at hok
    cases hok

/-! ## Runs -/

/-- A call of a panel. -/
inductive Request
  | bringUp
  | draw (stroke : Stroke Bitmap)
  | power (on : Bool)
  | flush

/-- The panel after a call, and its answer. -/
def serve (p : Panel) : Request → Panel × Reply
  | .bringUp => p.bringUp
  | .draw stroke => p.draw stroke
  | .power on => p.power on
  | .flush => p.flush

/-- A panel after calls, whatever their answers, from a new one on. The bus accepts the writes that
it accepts. -/
def after (accepts : Nat → Bool) (address : UInt8) (requests : List Request) : Panel :=
  requests.foldl (fun p request => (p.serve request).1) { bus := { accepts }, address }

variable {before : Memory}

theorem Mirrors.serve {p : Panel} (h : Mirrors p before) (request : Request) :
    Mirrors (p.serve request).1 before := by
  cases request with
  | bringUp => exact h.bringUp
  | draw stroke => exact h.draw stroke
  | power on => exact h.power on
  | flush => exact h.flush

/-- In every run the memory holds the pages that are not to be sent. -/
theorem mirrors_after (accepts : Nat → Bool) (address : UInt8) (before : Memory)
    (requests : List Request) : Mirrors (after accepts address requests) before := by
  have hfold : ∀ p : Panel, Mirrors p before →
      Mirrors (requests.foldl (fun p request => (p.serve request).1) p) before := by
    induction requests with
    | nil => exact fun p h => h
    | cons request rest ih => exact fun p h => ih _ (h.serve request)
  -- a new panel has all its pages to be sent
  exact hfold _ (Mirrors.of_dirty Canvas.isDirty_blank)

/-- A page whose pixels are in the memory is there byte by byte. -/
theorem Mirrors.visible_eq {p : Panel} (h : Mirrors p before) {page : Fin 8}
    (hclean : p.canvas.isDirty page = false) :
    (p.memory before).visible page = p.canvas.page page := by
  refine List.ext_getElem ?_ fun x hx hx' => Byte.ext_bit fun i hi => ?_
  · rw [Memory.visible, List.length_ofFn, p.canvas.length_page]
  · -- bit by bit: each pixel of the page is in the memory
    have hpage : (page.val * 8 + i) / 8 = page.val := by omega
    have hrow : (page.val * 8 + i) % 8 = i := by omega
    have hon := onPanel_of_page page (p.canvas.length_page page ▸ hx') hi
    have hpixel := h x (page.val * 8 + i) hon (by rwa [hpage])
    rw [Memory.pixel, hpage, hrow] at hpixel
    rw [p.canvas.bit_getElem_page page hx' hi, ← hpixel]
    exact congrArg (Byte.bit · i) (List.getElem_ofFn _)

theorem visible_eq_of_sent {p : Panel} (h : Mirrors p before) (hsent : p.canvas.dirtyPages = [])
    (page : Fin 8) : (p.memory before).visible page = p.canvas.page page := by
  refine h.visible_eq (Bool.eq_false_iff.2 fun hdirty => ?_)
  have hmem := Canvas.mem_dirtyPages.2 hdirty
  rw [hsent] at hmem
  cases hmem

/-- **The memory and the flushes of a run.** The memory holds every page that is not to be sent. An
accepted flush sends each page that is to be sent once, from the top, and leaves none. A flush that
is refused at a write of some page leaves the picture as it was, and that page and those after it to
be sent, which is what the next accepted flush does. -/
theorem visible_memory_after (accepts : Nat → Bool) (address : UInt8) (before : Memory)
    (requests : List Request) :
    let p := after accepts address requests
    (∀ page : Fin 8, p.canvas.isDirty page = false →
      (p.memory before).visible page = p.canvas.page page) ∧
    p.canvas.dirtyPages.Pairwise (· < ·) ∧
    (p.flush.2 = .ok () →
      p.flush.1.canvas.dirtyPages = [] ∧ p.flush.1.canvas.bytes = p.canvas.bytes ∧
      p.flush.1.sent = p.sent ++ p.canvas.dirtyPages.flatMap p.pageSends ∧
      ∀ page, (p.flush.1.memory before).visible page = p.flush.1.canvas.page page) ∧
    (p.ready = true → p.flush.2 ≠ .ok () → ∃ done page rest, ∃ k < 4,
      p.canvas.dirtyPages = done ++ page :: rest ∧
      p.flush.1.canvas.dirtyPages = page :: rest ∧ p.flush.1.canvas.bytes = p.canvas.bytes ∧
      p.flush.1.sent = p.sent ++ done.flatMap p.pageSends ++ (p.pageSends page).take k ∧
      (p.flush.1.flush.2 = .ok () →
        p.flush.1.flush.1.sent = p.flush.1.sent ++ (page :: rest).flatMap p.pageSends)) := by
  intro p
  have hmirrors : Mirrors p before := mirrors_after accepts address before requests
  refine ⟨fun page hclean => hmirrors.visible_eq hclean, p.canvas.ascending_dirtyPages, ?_, ?_⟩
  · intro hok
    have hall := delivered_of_ok hok
    have hnone : p.flush.1.canvas.dirtyPages = [] :=
      Canvas.dirtyPages_of_sent (List.append_nil _).symm hall.dirty
    refine ⟨hnone, hall.bytes, ?_, visible_eq_of_sent hmirrors.flush hnone⟩
    rw [hall.sent, List.append_nil]
  · intro hready hrefused
    obtain ⟨q, ⟨hflush, -⟩ | ⟨hflush, done, page, rest, hsplit, k, hk, hq⟩⟩ := flush_cases hready
    · rw [hflush] at hrefused
      cases hrefused rfl
    · rw [hflush]
      have hrest : q.canvas.dirtyPages = page :: rest := Canvas.dirtyPages_of_sent hsplit hq.dirty
      refine ⟨done, page, rest, k, hk, hsplit, hrest, hq.bytes, hq.sent, fun hok => ?_⟩
      -- the next flush goes on where this one stopped
      have hnext := (delivered_of_ok hok).sent
      rwa [hrest, pageSends_congr hq.address hq.bytes, List.append_nil] at hnext

/-- Dots on the pages 0 and 3 of a panel that was brought up. -/
def twoDots : List Request :=
  [.bringUp, .draw (.rect 0 0 0 0 .white true), .draw (.rect 0 24 0 24 .white true)]

/-- On a bus that refuses one write, the flush of the two dots stops at the second page, which is
all that the next flush sends. -/
theorem visible_memory_after_twoDots :
    let p := after (· != 60) 0x3C twoDots
    p.ready = true ∧ p.flush.2 ≠ .ok () ∧ p.canvas.dirtyPages = [0, 3] ∧
      p.flush.1.canvas.dirtyPages = [3] ∧ p.flush.1.flush.2 = .ok () ∧
      p.flush.1.flush.1.sent = p.flush.1.sent ++ p.pageSends 3 ∧
      ∀ page, (p.flush.1.flush.1.memory .zero).visible page =
        p.flush.1.flush.1.canvas.page page := by
  intro p
  have hp : after (· != 60) 0x3C twoDots = p := rfl
  have hready : p.ready = true := by decide +kernel
  have hrefused : p.flush.2 ≠ .ok () := by decide +kernel
  have hfirst : p.canvas.dirtyPages = [0, 3] := by decide +kernel
  have hnext : p.flush.1.canvas.dirtyPages = [3] := by decide +kernel
  have hok : p.flush.1.flush.2 = .ok () := by decide +kernel
  obtain ⟨-, -, -, hrest⟩ := visible_memory_after (· != 60) 0x3C .zero twoDots
  obtain ⟨-, -, haccepted, -⟩ := visible_memory_after (· != 60) 0x3C .zero (twoDots ++ [.flush])
  have hafter : after (· != 60) 0x3C (twoDots ++ [.flush]) = p.flush.1 := List.foldl_append
  rw [hafter] at haccepted
  obtain ⟨done, page, rest, k, -, -, hdirty, -, -, hsent⟩ := hrest hready hrefused
  rw [hp, hnext] at hdirty
  obtain ⟨rfl, rfl⟩ := List.cons.inj hdirty
  refine ⟨hready, hrefused, hfirst, hnext, hok, ?_, (haccepted hok).2.2.2⟩
  rw [hsent hok, List.flatMap_singleton]

end Panel

end StatusPanel
