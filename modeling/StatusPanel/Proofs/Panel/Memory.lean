import StatusPanel.Proofs.Screen.Ink
import StatusPanel.Proofs.Surface.Driven

/-!
# The memory of the panel

What the panel itself holds and shows: the writes that its bus accepted, replayed. A command names
a page or one half of a column, data go to the columns from there on, and every other command leaves
the memory alone. Whatever writes the bus refuses, a page that is not to be sent is in the memory as
it is on the canvas.

## Main definitions

* `Memory`: the memory, and where the next byte goes
* `Memory.receive`, `Memory.replay`: a write, and the accepted writes of a bus
* `Panel.memory`: the memory of a panel
* `Panel.Mirrors`: pages that are not to be sent are in the memory

## Main results

* `Panel.Mirrors.draw`, `Panel.Mirrors.power`, `Panel.Mirrors.flush`: every call keeps them there
* `Panel.isDirty_flush_of_ok`: an accepted flush leaves no page to be sent
* `Panel.bringUp_of_ok`: after the bring-up they are there, whatever the memory held
-/

namespace StatusPanel

/-- The memory of a panel. -/
structure Memory where
  /-- The bytes of a page by their columns. -/
  bytes : Nat → Nat → UInt8
  /-- The page where the next byte goes. -/
  page : Nat := 0
  /-- The column where the next byte goes. -/
  column : Nat := 0

namespace Memory

/-- The memory of zeros. -/
def zero : Memory := { bytes := fun _ _ => 0 }

/-- Takes a command: a page from `0xB0` on, the low half of a column below `0x10`, or the high half
from there on. -/
def command (m : Memory) (c : UInt8) : Memory :=
  if 0xB0 ≤ c.toNat ∧ c.toNat < 0xB8 then { m with page := c.toNat - 0xB0 }
  else if c.toNat < 0x10 then { m with column := m.column / 16 * 16 + c.toNat }
  else if c.toNat < 0x20 then { m with column := (c.toNat - 0x10) * 16 + m.column % 16 }
  else m

/-- Takes a byte of data, and goes on to the next column. -/
def put (m : Memory) (b : UInt8) : Memory where
  bytes page column := if page = m.page ∧ column = m.column then b else m.bytes page column
  page := m.page
  column := m.column + 1

/-- Takes a write: commands behind `0x00`, or data behind `0x40`. -/
def receive (m : Memory) : List UInt8 → Memory
  | 0x00 :: commands => commands.foldl command m
  | 0x40 :: data => data.foldl put m
  | _ => m

/-- Takes the writes of a bus that are for the panel's address. -/
def replay (m : Memory) (address : UInt8) (writes : List Write) : Memory :=
  writes.foldl (fun m w => if w.address = address then m.receive w.bytes else m) m

/-- Whether a pixel is on. The first two columns are not visible. -/
def pixel (m : Memory) (x y : Nat) : Bool := Byte.bit (m.bytes (y / 8) (x + 2)) (y % 8)

@[simp] theorem bytes_command (m : Memory) (c : UInt8) : (m.command c).bytes = m.bytes := by
  unfold command
  split
  · rfl
  · split
    · rfl
    · split <;> rfl

/-- The command that names a page. -/
theorem command_page (m : Memory) (page : Fin 8) :
    m.command (0xB0 ||| UInt8.ofNat page.val) = { m with page := page.val } := by
  have hall : ∀ page : Fin 8, (0xB0 ||| UInt8.ofNat page.val).toNat = 0xB0 + page.val := by decide
  rw [command, hall page, if_pos (by omega), Nat.add_sub_cancel_left]

/-- The commands that name the first visible column. -/
theorem command_column (m : Memory) : (m.command 0x02).command 0x10 = { m with column := 2 } := by
  have hlow : m.command 0x02 = { m with column := m.column / 16 * 16 + 2 } := rfl
  have hhigh : (m.command 0x02).command 0x10 =
      { m with column := (m.command 0x02).column % 16 } := by
    rw [command, if_neg (by decide), if_neg (by decide), if_pos (by decide), hlow]
    simp
  have hcolumn : (m.command 0x02).column % 16 = 2 := by
    rw [hlow]
    dsimp only
    omega
  rw [hhigh, hcolumn]

@[simp] theorem bytes_receive_command (m : Memory) (c : UInt8) :
    (m.receive (Panel.command c)).bytes = m.bytes :=
  m.bytes_command c

@[simp] theorem page_put (m : Memory) (b : UInt8) : (m.put b).page = m.page := rfl

@[simp] theorem column_put (m : Memory) (b : UInt8) : (m.put b).column = m.column + 1 := rfl

theorem bytes_put (m : Memory) (b : UInt8) (page column : Nat) :
    (m.put b).bytes page column =
      if page = m.page ∧ column = m.column then b else m.bytes page column := rfl

theorem bytes_foldl_put_of_not (m : Memory) (data : List UInt8) {page column : Nat}
    (h : ¬(page = m.page ∧ m.column ≤ column)) :
    (data.foldl put m).bytes page column = m.bytes page column := by
  induction data generalizing m with
  | nil => rfl
  | cons b rest ih =>
    have hnext : ¬(page = (m.put b).page ∧ (m.put b).column ≤ column) := by
      rw [page_put, column_put]
      omega
    rw [List.foldl_cons, ih _ hnext, bytes_put, if_neg (by omega)]

/-- Data go to the columns of the page one after another. -/
theorem bytes_foldl_put (m : Memory) {data : List UInt8} {i : Nat} (h : i < data.length) :
    (data.foldl put m).bytes m.page (m.column + i) = data.getD i 0 := by
  -- Induction on the data: the first byte stays where it is put, the others go behind it.
  induction data generalizing m i with
  | nil => cases h
  | cons b rest ih =>
    rw [List.foldl_cons]
    cases i with
    | zero =>
      have hnext : ¬(m.page = (m.put b).page ∧ (m.put b).column ≤ m.column) := by
        rw [column_put]
        omega
      rw [Nat.add_zero, bytes_foldl_put_of_not _ rest hnext, bytes_put, if_pos ⟨rfl, rfl⟩]
      rfl
    | succ i =>
      have hrest := ih (m.put b) (Nat.lt_of_succ_lt_succ h)
      rw [page_put, column_put, Nat.add_right_comm] at hrest
      exact hrest

end Memory

/-! ## Drawing on a page that is not to be sent -/

namespace Canvas

theorem isDirty_blank (page : Nat) (h : page < 8) : blank.isDirty page = true := by
  have hall : ∀ page < 8, blank.isDirty page = true := by decide
  exact hall page h

theorem pixel_drawDot_of_clean {c : Canvas} {d : Dot} {x y : Nat} (h : OnPanel x y)
    (hclean : (c.drawDot d).isDirty (y / 8) = false) :
    c.isDirty (y / 8) = false ∧ (c.drawDot d).pixel x y = c.pixel x y := by
  rw [Bool.eq_false_iff, ne_eq, isDirty_drawDot_iff (Nat.div_lt_of_lt_mul h.2), not_or] at hclean
  refine ⟨Bool.eq_false_iff.2 hclean.1, ?_⟩
  rw [pixel_drawDot c d h]
  -- a dot on the page that leaves it clean sets its pixel to what it was
  split
  case isTrue hat =>
    refine Classical.byContradiction fun hne => hclean.2 ⟨x, y, h, rfl, hat, ?_⟩
    exact fun heq => hne heq.symm
  case isFalse => rfl

/-- Dots that leave a page as one not to be sent leave its pixels alone. -/
theorem pixel_drawDots_of_clean {c : Canvas} {ds : List Dot} {x y : Nat} (h : OnPanel x y)
    (hclean : (c.drawDots ds).isDirty (y / 8) = false) :
    c.isDirty (y / 8) = false ∧ (c.drawDots ds).pixel x y = c.pixel x y := by
  induction ds generalizing c with
  | nil => exact ⟨hclean, rfl⟩
  | cons d ds ih =>
    obtain ⟨hd, hrest⟩ := ih hclean
    obtain ⟨hc, hfirst⟩ := pixel_drawDot_of_clean h hd
    exact ⟨hc, hrest.trans hfirst⟩

end Canvas

namespace Panel

/-- The memory of a panel that held something before the first write. -/
def memory (p : Panel) (before : Memory) : Memory :=
  before.replay p.address p.bus.accepted.toList

variable {p : Panel} {before : Memory}

/-! ## What sending does to the memory -/

theorem memory_send (p : Panel) (before : Memory) (bytes : List UInt8) :
    (p.send bytes).1.memory before =
      if (p.send bytes).2 = .ok () then (p.memory before).receive bytes else p.memory before := by
  cases h : p.bus.accepts p.bus.attempts with
  | true => simp [send, Bus.write, h, memory, Memory.replay]
  | false => simp [send, Bus.write, h, memory]

theorem memory_sendAll_of_ok {writes : List (List UInt8)} (hok : (p.sendAll writes).2 = .ok ()) :
    (p.sendAll writes).1.memory before = writes.foldl Memory.receive (p.memory before) := by
  induction writes generalizing p with
  | nil => rfl
  | cons bytes rest ih =>
    have hsend := memory_send p before bytes
    rw [sendAll] at hok ⊢
    generalize p.send bytes = sent at hok hsend ⊢
    obtain ⟨q, _ | _⟩ := sent
    · cases hok
    · rw [andThen_ok] at hok ⊢
      rw [ih hok, hsend, if_pos rfl, List.foldl_cons]

theorem bytes_memory_send_command (p : Panel) (before : Memory) (c : UInt8) :
    ((p.send (command c)).1.memory before).bytes = (p.memory before).bytes := by
  rw [memory_send]
  split
  · exact Memory.bytes_receive_command _ c
  · rfl

theorem bytes_memory_sendAll_commands (p : Panel) (before : Memory) (commands : List UInt8) :
    ((p.sendAll (commands.map command)).1.memory before).bytes = (p.memory before).bytes := by
  induction commands generalizing p with
  | nil => rfl
  | cons c rest ih =>
    rw [List.map_cons, sendAll, view_andThen (fun q : Panel => (q.memory before).bytes) _ ih,
      bytes_memory_send_command]

/-! ## Pages that are not to be sent -/

/-- The pages that are not to be sent are in the memory as they are on the canvas. -/
def Mirrors (p : Panel) (before : Memory) : Prop :=
  ∀ x y, OnPanel x y → p.canvas.isDirty (y / 8) = false →
    (p.memory before).pixel x y = p.canvas.pixel x y

theorem pageWrites_eq (page : Fin 8) (bytes : List UInt8) :
    pageWrites page bytes =
      [0xB0 ||| UInt8.ofNat page.val, 0x02, 0x10].map command ++ [0x40 :: bytes] := rfl

/-- The commands that send a page put its bytes from the first visible column on. -/
theorem foldl_receive_pageWrites (m : Memory) (page : Fin 8) (bytes : List UInt8) :
    (pageWrites page bytes).foldl Memory.receive m =
      bytes.foldl Memory.put { m with page := page.val, column := 2 } := by
  have hcommands : ((m.command (0xB0 ||| UInt8.ofNat page.val)).command 0x02).command 0x10 =
      { m with page := page.val, column := 2 } := by
    rw [Memory.command_page, Memory.command_column]
  rw [← hcommands]
  rfl

/-- A page that is accepted is in the memory, and the others are as before. -/
theorem pixel_memory_sendPage (before : Memory) {page : Fin 8} {bytes : List UInt8}
    (hlen : bytes.length = 128) (hok : (p.sendAll (pageWrites page bytes)).2 = .ok ())
    {x y : Nat} (h : OnPanel x y) :
    ((p.sendAll (pageWrites page bytes)).1.memory before).pixel x y =
      if y / 8 = page.val then Byte.bit (bytes.getD x 0) (y % 8)
      else (p.memory before).pixel x y := by
  rw [memory_sendAll_of_ok hok, foldl_receive_pageWrites, Memory.pixel, Nat.add_comm x 2]
  have hx : x < bytes.length := by
    rw [hlen]
    exact h.1
  split
  case isTrue hpage =>
    rw [hpage]
    exact congrArg (Byte.bit · (y % 8))
      (Memory.bytes_foldl_put { p.memory before with page := page.val, column := 2 } hx)
  case isFalse hpage =>
    rw [Memory.bytes_foldl_put_of_not _ bytes fun hat => hpage hat.1, Memory.pixel,
      Nat.add_comm 2 x]

/-- A page that is refused leaves the bytes alone, at whichever write it is refused. -/
theorem bytes_memory_sendPage (before : Memory) {page : Fin 8} {bytes : List UInt8} {fault : Fault}
    (herror : (p.sendAll (pageWrites page bytes)).2 = .error fault) :
    ((p.sendAll (pageWrites page bytes)).1.memory before).bytes = (p.memory before).bytes := by
  have hcommands := bytes_memory_sendAll_commands p before
    [0xB0 ||| UInt8.ofNat page.val, 0x02, 0x10]
  rw [pageWrites_eq, sendAll_append] at herror ⊢
  generalize p.sendAll _ = sent at herror hcommands ⊢
  obtain ⟨q, _ | _⟩ := sent
  · exact hcommands
  · -- only the data are left to be refused
    rw [andThen_ok] at herror ⊢
    have hsend := memory_send q before (0x40 :: bytes)
    rw [sendAll] at herror ⊢
    generalize q.send _ = last at herror hsend ⊢
    obtain ⟨r, _ | _⟩ := last
    · rw [andThen_error, hsend, if_neg (by simp), hcommands]
    · cases herror

namespace Mirrors

theorem of_dirty (h : ∀ page, page < 8 → p.canvas.isDirty page = true) : Mirrors p before := by
  intro x y hxy hclean
  have hpage : y / 8 < 8 := Nat.div_lt_of_lt_mul hxy.2
  rw [h _ hpage] at hclean
  cases hclean

theorem of_bytes_eq {q : Panel} (h : Mirrors p before) (hcanvas : q.canvas = p.canvas)
    (hbytes : (q.memory before).bytes = (p.memory before).bytes) : Mirrors q before := by
  intro x y hxy hclean
  rw [hcanvas] at hclean ⊢
  rw [← h x y hxy hclean, Memory.pixel, Memory.pixel, hbytes]

/-- A page is sent, or is still to be sent. -/
theorem flushPage (h : Mirrors p before) (page : Fin 8) : Mirrors (p.flushPage page).1 before := by
  unfold Panel.flushPage
  split
  case isFalse => exact h
  case isTrue hdirty =>
    have hcanvas := canvas_sendAll p (pageWrites page (p.canvas.page page))
    cases hreply : (p.sendAll (pageWrites page (p.canvas.page page))).2 with
    | error fault =>
      -- a refused page stays one to be sent, and its data never arrived
      have hbytes := bytes_memory_sendPage before hreply
      rw [← Prod.eta (p.sendAll _), hreply, andThen_error]
      exact h.of_bytes_eq hcanvas hbytes
    | ok =>
      rw [← Prod.eta (p.sendAll _), hreply, andThen_ok]
      intro x y hxy hclean
      have hpage : y / 8 < 8 := Nat.div_lt_of_lt_mul hxy.2
      have hsent := pixel_memory_sendPage before (p.canvas.length_page page) hreply hxy
      have hpixel : ((p.sendAll (pageWrites page (p.canvas.page page))).1.memory before).pixel x y =
          p.canvas.pixel x y := by
        rw [hsent]
        -- on the page sent the memory has its bytes, on another one nothing changed
        by_cases heq : y / 8 = page.val
        · have hbit := p.canvas.bit_page page hxy.1 (Nat.mod_lt y (by decide : 8 > 0))
          rw [if_pos heq, hbit, ← heq, Nat.div_add_mod']
        · rw [hcanvas, Canvas.isDirty_markClean page.isLt hpage] at hclean
          rw [if_neg heq]
          refine h x y hxy ?_
          simpa [heq] using hclean
      rw [Canvas.pixel_markClean, hcanvas]
      exact hpixel

theorem flushPages (h : Mirrors p before) (pages : List (Fin 8)) :
    Mirrors (p.flushPages pages).1 before := by
  induction pages generalizing p with
  | nil => exact h
  | cons page rest ih =>
    have hpage := h.flushPage page
    rw [Panel.flushPages]
    generalize p.flushPage page = sent at hpage ⊢
    obtain ⟨q, _ | _⟩ := sent
    · exact hpage
    · exact ih hpage

theorem flush (h : Mirrors p before) : Mirrors p.flush.1 before := by
  unfold Panel.flush whenReady
  split
  · exact h.flushPages _
  · exact h

theorem sendPower (h : Mirrors p before) (on : Bool) : Mirrors (p.sendPower on).1 before := by
  refine h.of_bytes_eq (canvas_sendPower p on) ?_
  rw [Panel.sendPower, view_andThen (fun q : Panel => (q.memory before).bytes) _ fun _ => rfl,
    bytes_memory_send_command]

theorem power (h : Mirrors p before) (on : Bool) : Mirrors (p.power on).1 before := by
  unfold Panel.power whenReady
  split
  · dsimp only
    split
    · exact h
    · exact h.sendPower on
  · exact h

theorem draw (h : Mirrors p before) (stroke : Stroke Bitmap) :
    Mirrors (p.draw stroke).1 before := by
  rcases p.draw_cases stroke with hd | ⟨fault, hd⟩
  · -- a page that a stroke left clean looks as before, and was clean before
    rw [hd]
    intro x y hxy hclean
    obtain ⟨hbefore, hpixel⟩ := Canvas.pixel_drawDots_of_clean hxy hclean
    rw [hpixel]
    exact h x y hxy hbefore
  · rw [hd]
    exact h

/-- Strokes and a flush keep the pages in the memory that are not to be sent. -/
theorem paint {p : Panel} {before : Memory} (h : Mirrors p before)
    (strokes : List (Stroke Bitmap)) : Mirrors (StatusPanel.paint p strokes).1 before := by
  have hdrawn : Mirrors (drawAll p strokes).1 before := by
    induction strokes generalizing p with
    | nil => exact h
    | cons stroke rest ih =>
      have hfirst : Mirrors (Surface.draw p stroke).1 before := h.draw stroke
      rw [drawAll_cons]
      generalize Surface.draw p stroke = r at hfirst ⊢
      obtain ⟨q, _ | _⟩ := r
      · exact hfirst
      · exact ih hfirst
  exact hdrawn.flush

theorem of_driven {p q : Panel} {before : Memory} (h : Driven p q)
    (hp : Mirrors p before) : Mirrors q before :=
  h.holds (P := fun p => Mirrors p before) (fun _ strokes hp => hp.paint strokes)
    (fun _ on hp => hp.power on) hp

end Mirrors

/-! ## Accepted flushes -/

/-- A page that was accepted is not to be sent any more, and the others are as before. -/
theorem isDirty_flushPage_of_ok {page : Fin 8} (hok : (p.flushPage page).2 = .ok ()) (q : Fin 8) :
    (p.flushPage page).1.canvas.isDirty q = true ↔ p.canvas.isDirty q = true ∧ q ≠ page := by
  unfold flushPage at hok ⊢
  split
  case isTrue hdirty =>
    rw [if_pos hdirty] at hok
    have hcanvas := canvas_sendAll p (pageWrites page (p.canvas.page page))
    generalize p.sendAll _ = sent at hok hcanvas ⊢
    obtain ⟨r, _ | _⟩ := sent
    · cases hok
    · rw [andThen_ok, Canvas.isDirty_markClean page.isLt q.isLt, hcanvas]
      simp [Fin.ext_iff]
  case isFalse hclean =>
    refine ⟨fun hq => ⟨hq, ?_⟩, And.left⟩
    rintro rfl
    exact hclean hq

theorem isDirty_flushPages_of_ok {pages : List (Fin 8)} (hok : (p.flushPages pages).2 = .ok ())
    (q : Fin 8) :
    (p.flushPages pages).1.canvas.isDirty q = true ↔ p.canvas.isDirty q = true ∧ q ∉ pages := by
  induction pages generalizing p with
  | nil => simp [flushPages]
  | cons page rest ih =>
    have hpage : (p.flushPage page).2 = .ok () → _ := fun hpage => isDirty_flushPage_of_ok hpage q
    rw [flushPages] at hok ⊢
    generalize p.flushPage page = sent at hok hpage ⊢
    obtain ⟨r, _ | _⟩ := sent
    · cases hok
    · rw [andThen_ok] at hok ⊢
      rw [ih hok, hpage rfl, List.mem_cons, not_or, and_assoc]

/-- An accepted flush leaves no page to be sent. -/
theorem isDirty_flush_of_ok (hok : p.flush.2 = .ok ()) {page : Nat} (h : page < 8) :
    p.flush.1.canvas.isDirty page = false := by
  unfold flush whenReady at hok ⊢
  split
  case isTrue hr =>
    rw [if_pos hr] at hok
    have hiff := isDirty_flushPages_of_ok hok ⟨page, h⟩
    rw [Bool.eq_false_iff]
    exact fun hdirty => (hiff.1 hdirty).2 (List.mem_finRange _)
  case isFalse hr =>
    rw [if_neg hr] at hok
    cases hok

/-- A panel that was configured is ready, and cleared before its pages are sent. -/
theorem bringUp_of_configured (p : Panel) (before : Memory) :
    let r := andThen { p with ready := true, canvas := .blank }.flush fun q => q.sendPower true
    r.1.ready = true ∧ Mirrors r.1 before := by
  intro r
  have hcleared : Mirrors { p with ready := true, canvas := .blank } before :=
    Mirrors.of_dirty Canvas.isDirty_blank
  have hready := ready_flush { p with ready := true, canvas := .blank }
  have hflushed := hcleared.flush
  unfold r
  generalize Panel.flush { p with ready := true, canvas := .blank } = sent at hready hflushed ⊢
  obtain ⟨q, _ | _⟩ := sent
  · exact ⟨hready, hflushed⟩
  · exact ⟨(ready_sendPower q true).trans hready, hflushed.sendPower true⟩

/-- The bring-up leaves the panel ready with an empty picture, which its memory mirrors, whatever it
held before. -/
theorem bringUp_of_ok (hok : p.bringUp.2 = .ok ()) (before : Memory) :
    p.bringUp.1.ready = true ∧ Mirrors p.bringUp.1 before := by
  unfold bringUp at hok ⊢
  generalize p.sendAll (configuration.map command) = sent at hok ⊢
  obtain ⟨q, _ | _⟩ := sent
  · cases hok
  · exact q.bringUp_of_configured before

/-- A bring-up that is refused on the way keeps the pages in the memory as well. -/
theorem Mirrors.bringUp (h : Mirrors p before) : Mirrors p.bringUp.1 before := by
  have hcanvas := canvas_sendAll p (configuration.map command)
  have hbytes := bytes_memory_sendAll_commands p before configuration
  unfold Panel.bringUp
  generalize p.sendAll (configuration.map command) = sent at hcanvas hbytes ⊢
  obtain ⟨q, _ | _⟩ := sent
  · exact h.of_bytes_eq hcanvas hbytes
  · exact (q.bringUp_of_configured before).2

end Panel

end StatusPanel
