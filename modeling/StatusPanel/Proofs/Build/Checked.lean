import StatusPanel.Proofs.Build.PlainText

/-!
# Documents that passed the checks

The checks of the build and the reader of the settings are written apart from each other. A document
without complaints has no sections but those of the settings, so that its plain text is accepted
exactly if every value fits the field of its key. For some of the integers that is what the checks
make sure of; for others they know the lower bound only, and for the rest of the values nothing.

## Main definitions

* `Document.Plain`: documents that have a plain text
* `Document.Assignment`, `Document.assignments`: what a document assigns to which key
* `Document.secured`, `Document.securedBelow`: the keys whose integers the checks bound

## Main results

* `Document.accepts_plainLines_iff`: when the lines of a document are accepted
* `Document.fits_of_secured`, `Document.fits_iff_of_securedBelow`: what the checks make sure of
* `Document.read_plainText_iff`: when a document that passed the checks is accepted
-/

namespace StatusPanel.Document

open Text

/-! ## Documents -/

/-- Whether a document has a plain text: numbers, truth values and text, at the root or one table
deep, each under a key of its own. -/
structure Plain (entries : List (String × Value)) : Prop where
  nodup : (entries.map Prod.fst).Nodup
  shallow : ∀ entry ∈ entries, entry.2.isScalar = true ∨ entry.2.isTable = true
  nodup_inner {name : String} {inner : List (String × Value)} :
    (name, .table inner) ∈ entries → (inner.map Prod.fst).Nodup
  scalar_inner {name : String} {inner : List (String × Value)} :
    (name, .table inner) ∈ entries → ∀ entry ∈ inner, entry.2.isScalar = true

/-- A value that is assigned to a key of a section. -/
structure Assignment where
  owner : Section
  key : String
  value : Value

/-- Whether the key names no field of its section, or one that the value fits. -/
def Assignment.Fits (a : Assignment) : Prop :=
  ∀ f, Field.named? a.owner a.key.toList = some f → a.value.Fits f.kind

/-- The assignments of an entry of the root: those in the table of a section, or its own. -/
def entryAssignments : String × Value → List Assignment
  | (name, .table inner) =>
    match Section.named? name.toList with
    | some owner => inner.map fun entry => ⟨owner, entry.1, entry.2⟩
    | none => []
  | (key, value) => [⟨.root, key, value⟩]

/-- What a document assigns to which key. -/
def assignments (entries : List (String × Value)) : List Assignment :=
  entries.flatMap entryAssignments

theorem entryAssignments_of_isScalar {entry : String × Value} (h : entry.2.isScalar = true) :
    entryAssignments entry = [⟨.root, entry.1, entry.2⟩] := by
  obtain ⟨key, value⟩ := entry
  cases value with
  | table entries => cases h
  | _ => rfl

theorem isTable_of_isScalar {value : Value} (h : value.isScalar = true) :
    value.isTable = false := by
  cases value with
  | table entries => cases h
  | _ => rfl

/-! ## Lines that are accepted -/

/-- Entries are accepted if their values fit. -/
theorem accepts_entryLines_append {owner : Section} {entries : List (String × Value)}
    (hscalar : ∀ entry ∈ entries, entry.2.isScalar = true) {rest : List (List Char)} :
    Reading.Accepts owner (entries.map entryLine ++ rest) ↔
      (∀ entry ∈ entries, Assignment.Fits ⟨owner, entry.1, entry.2⟩) ∧
        Reading.Accepts owner rest := by
  induction entries with
  | nil => simp
  | cons entry entries ih =>
    obtain ⟨hfirst, hentries⟩ := List.forall_mem_cons.1 hscalar
    rw [List.map_cons, List.cons_append, accepts_entryLine_cons hfirst, ih hentries,
      List.forall_mem_cons, and_assoc]
    rfl

/-- Tables are accepted, whichever section is open before, if the values in them fit. -/
theorem accepts_tableLines_iff {entries : List (String × Value)} (hplain : Plain entries)
    (hnames : ∀ entry ∈ entries, entry.2.isTable = true → entry.1 ∈ Checks.sectionNames)
    (owner : Section) :
    Reading.Accepts owner (entries.flatMap tableLines) ↔
      ∀ entry ∈ entries, entry.2.isTable = true → ∀ a ∈ entryAssignments entry, a.Fits := by
  have hinner : ∀ name inner, (name, .table inner) ∈ entries →
      ∀ entry ∈ inner, entry.2.isScalar = true := fun _ _ => hplain.scalar_inner
  clear hplain
  induction entries generalizing owner with
  | nil => exact iff_of_true (Reading.accepts_nil owner) nofun
  | cons entry entries ih =>
    obtain ⟨hfirst, hrest⟩ := List.forall_mem_cons.1 hnames
    have hih (owner : Section) : Reading.Accepts owner (entries.flatMap tableLines) ↔
        ∀ entry ∈ entries, entry.2.isTable = true → ∀ a ∈ entryAssignments entry, a.Fits :=
      ih hrest owner fun name inner hmem => hinner name inner (List.mem_cons_of_mem _ hmem)
    rw [List.flatMap_cons, List.forall_mem_cons]
    obtain ⟨name, value⟩ := entry
    cases value with
    | table inner =>
      -- the header opens the section, and the entries of the table come behind it
      obtain ⟨next, hnamed, hheader⟩ := ofText_headerLine (hfirst rfl)
      have hscalar := hinner name inner List.mem_cons_self
      rw [tableLines, List.cons_append, Reading.accepts_cons, hheader]
      have hopened : (∃ opened, some next = some opened ∧
          Reading.Accepts opened (inner.map entryLine ++ entries.flatMap tableLines)) ↔
            Reading.Accepts next (inner.map entryLine ++ entries.flatMap tableLines) := by
        simp
      refine hopened.trans ?_
      rw [accepts_entryLines_append hscalar, hih, entryAssignments, hnamed]
      refine and_congr_left fun _ => ⟨fun hfits _ => ?_, fun hfits => ?_⟩
      · exact List.forall_mem_map.2 hfits
      · exact List.forall_mem_map.1 (hfits rfl)
    | _ =>
      rw [tableLines, List.nil_append, hih]
      · simp [Value.isTable]
      · exact nofun

/-- The lines of a document are accepted if every value fits the field of its key. -/
theorem accepts_plainLines_iff {entries : List (String × Value)} (hplain : Plain entries)
    (hnames : ∀ entry ∈ entries, entry.2.isTable = true → entry.1 ∈ Checks.sectionNames) :
    Reading.Accepts .root (plainLines entries) ↔ ∀ a ∈ assignments entries, a.Fits := by
  have hroot : ∀ entry ∈ entries.filter fun entry => !entry.2.isTable,
      entry.2.isScalar = true := by
    intro entry hentry
    obtain ⟨hmem, hnot⟩ := List.mem_filter.1 hentry
    refine (hplain.shallow entry hmem).resolve_right fun htable => ?_
    rw [htable] at hnot
    cases hnot
  rw [plainLines, accepts_entryLines_append hroot, accepts_tableLines_iff hplain hnames]
  constructor
  · rintro ⟨hscalars, htables⟩ a ha
    obtain ⟨entry, hentry, ha⟩ := List.mem_flatMap.1 ha
    rcases hplain.shallow entry hentry with hscalar | htable
    · rw [entryAssignments_of_isScalar hscalar, List.mem_singleton] at ha
      subst ha
      refine hscalars entry (List.mem_filter.2 ⟨hentry, ?_⟩)
      rw [isTable_of_isScalar hscalar]
      rfl
    · exact htables entry hentry htable a ha
  · intro hall
    constructor
    · intro entry hentry
      have hscalar := hroot entry hentry
      refine hall _ (List.mem_flatMap.2 ⟨entry, (List.mem_filter.1 hentry).1, ?_⟩)
      rw [entryAssignments_of_isScalar hscalar]
      exact List.mem_singleton_self _
    · exact fun entry hentry _ a ha => hall a (List.mem_flatMap.2 ⟨entry, hentry, ha⟩)

/-- The plain text of a document has the lines of the document. -/
theorem lines_plainText {entries : List (String × Value)} (hplain : Plain entries) :
    lines (plainText entries).toList = plainLines entries := by
  rw [plainText, String.toList_ofList]
  refine lines_unlines fun line hline => ?_
  -- no line has a line feed in it, nor a blank at its end
  have hscalars : ∀ entry : String × Value, entry.2.isScalar = true →
      '\n' ∉ entryLine entry ∧ (entryLine entry).getLast? ≠ some '\r' := by
    intro entry hscalar
    refine ⟨newline_not_mem_entryLine hscalar, fun hlast => ?_⟩
    exact absurd ((trimmed_entryLine hscalar).last '\r' hlast) (by decide)
  rcases List.mem_append.1 hline with hline | hline
  · obtain ⟨entry, hentry, rfl⟩ := List.mem_map.1 hline
    obtain ⟨hmem, hnot⟩ := List.mem_filter.1 hentry
    refine hscalars entry ((hplain.shallow entry hmem).resolve_right fun htable => ?_)
    rw [htable] at hnot
    cases hnot
  · obtain ⟨⟨name, value⟩, hentry, hline⟩ := List.mem_flatMap.1 hline
    cases value with
    | table inner =>
      rcases List.mem_cons.1 hline with rfl | hline
      · obtain ⟨-, -, -, -, -, -, hkey⟩ := keyText_eq_cons name
        constructor
        · simp only [headerLine, List.mem_cons, List.mem_append, List.not_mem_nil, or_false, not_or]
          exact ⟨by decide, hkey, by decide⟩
        · rw [headerLine, ← List.cons_append, List.getLast?_concat]
          decide
      · obtain ⟨entry, hentry', rfl⟩ := List.mem_map.1 hline
        exact hscalars entry (hplain.scalar_inner hentry entry hentry')
    | _ => cases hline

/-! ## What the checks make sure of -/

/-- The keys whose integers the checks bound as the settings do. -/
def secured : List (Section × String) :=
  [(.display, "i2c_address"), (.typing, "sample_periods"), (.lighting, "effect"),
    (.lighting, "hue"), (.lighting, "sat"), (.lighting, "val"), (.lighting, "speed")]

/-- The keys whose integers the checks bound from below only. -/
def securedBelow : List (Section × String) :=
  [(.timing, "sleep_check_interval_ms"), (.timing, "bar_redraw_interval_ms"),
    (.typing, "scale_max"), (.typing, "sample_seconds")]

theorem lookup_of_mem {entries : List (String × Value)} (hnodup : (entries.map Prod.fst).Nodup)
    {key : String} {value : Value} (hmem : (key, value) ∈ entries) :
    entries.lookup key = some value := by
  induction entries with
  | nil => cases hmem
  | cons entry entries ih =>
    rw [List.map_cons, List.nodup_cons] at hnodup
    rcases List.mem_cons.1 hmem with rfl | hmem
    · exact List.lookup_cons_self
    · have hne : (key == entry.1) = false := by
        rw [beq_eq_false_iff_ne]
        exact fun heq => hnodup.1 (List.mem_map.2 ⟨(key, value), hmem, heq⟩)
      rw [List.lookup_cons, hne]
      exact ih hnodup.2 hmem

/-- The checks see the integers that are assigned in sections. -/
theorem integer?_of_mem {entries : List (String × Value)} (hplain : Plain entries)
    {owner : Section} {key : String} {n : Int} (hroot : owner ≠ .root)
    (hmem : ⟨owner, key, .integer n⟩ ∈ assignments entries) :
    Checks.integer? (.table entries) owner.title key = some n := by
  obtain ⟨⟨name, value⟩, hentry, hassigned⟩ := List.mem_flatMap.1 hmem
  cases value with
  | table inner =>
    unfold entryAssignments at hassigned
    dsimp only at hassigned
    split at hassigned
    case h_1 next hnamed =>
      obtain ⟨⟨key', value'⟩, hinner, heq⟩ := List.mem_map.1 hassigned
      injection heq with howner hkey hvalue
      subst howner hkey hvalue
      have hsection := lookup_of_mem hplain.nodup hentry
      rw [String.toList_inj.1 (Section.eq_title_of_named? hnamed)] at hsection
      have hvalue := lookup_of_mem (hplain.nodup_inner hentry) hinner
      rw [Checks.integer?, Value.get?, hsection, Option.bind_some, Value.get?, hvalue]
      rfl
    case h_2 => cases hassigned
  | _ =>
    -- an entry of the root
    obtain heq := List.mem_singleton.1 hassigned
    exact absurd (congrArg Assignment.owner heq) hroot

/-- An integer without a complaint passed the test. -/
theorem test_of_complain_eq_nil {document : Value} {owner key complaint : String}
    {test : Int → Bool} (h : Checks.complain document owner key test complaint = []) {n : Int}
    (hn : Checks.integer? document owner key = some n) : test n = true := by
  unfold Checks.complain at h
  rw [hn] at h
  dsimp only at h
  split at h
  case isTrue hpassed => exact hpassed
  case isFalse => cases h

/-- What the checks of the numbers say of the integers of the keys that they look at. -/
structure Bounded (document : Value) : Prop where
  address : ∀ n, Checks.integer? document "display" "i2c_address" = some n → 0 ≤ n ∧ n ≤ 0x7F
  interval : ∀ key ∈ ["sleep_check_interval_ms", "bar_redraw_interval_ms"], ∀ n,
    Checks.integer? document "timing" key = some n → 0 < n
  typing : ∀ key ∈ ["scale_max", "sample_seconds", "sample_periods"], ∀ n,
    Checks.integer? document "wpm" key = some n → 0 < n
  periods : ∀ n, Checks.integer? document "wpm" "sample_periods" = some n → n ≤ 64
  byte : ∀ key ∈ ["effect", "hue", "sat", "val", "speed"], ∀ n,
    Checks.integer? document "rgb" key = some n → 0 ≤ n ∧ n ≤ 255

theorem bounded_of_ranges {document : Value} (h : Checks.ranges document = []) :
    Bounded document := by
  simp only [Checks.ranges, List.append_eq_nil_iff, List.flatMap_eq_nil_iff] at h
  obtain ⟨⟨⟨⟨haddress, hinterval⟩, htyping⟩, hperiods⟩, hbyte⟩ := h
  constructor
  case address => exact fun n hn => by simpa using test_of_complain_eq_nil haddress hn
  case interval =>
    exact fun key hkey n hn => by simpa using test_of_complain_eq_nil (hinterval key hkey) hn
  case typing =>
    exact fun key hkey n hn => by simpa using test_of_complain_eq_nil (htyping key hkey) hn
  case periods => exact fun n hn => by simpa using test_of_complain_eq_nil hperiods hn
  case byte =>
    exact fun key hkey n hn => by simpa using test_of_complain_eq_nil (hbyte key hkey) hn

/-- An integer fits the field of its key if it lies between the bounds of the field's kind. -/
theorem fits_integer_iff {owner : Section} {key : String} {f : Field}
    (hnamed : Field.named? owner key.toList = some f) (hflag : f.kind ≠ .flag) {n : Int} :
    Assignment.Fits ⟨owner, key, .integer n⟩ ↔ (f.kind.least : Int) ≤ n ∧ n ≤ f.kind.greatest := by
  constructor
  · exact fun h => (h f hnamed).2
  · intro hbounds g hg
    obtain rfl := Option.some.inj (hnamed.symm.trans hg)
    exact ⟨hflag, hbounds⟩

section

variable {entries : List (String × Value)} (hplain : Plain entries)
  (hbounded : Bounded (.table entries)) {owner : Section} {key : String} {n : Int}
  (hmem : ⟨owner, key, .integer n⟩ ∈ assignments entries)

include hplain hbounded hmem

/-- The integer of a key that the checks bound as the settings do fits. -/
theorem fits_of_secured (hsecured : (owner, key) ∈ secured) :
    Assignment.Fits ⟨owner, key, .integer n⟩ := by
  simp only [secured, List.mem_cons, List.not_mem_nil, or_false, Prod.mk.injEq] at hsecured
  obtain ⟨rfl, rfl⟩ | ⟨rfl, rfl⟩ | ⟨rfl, hkey⟩ : (owner = .display ∧ key = "i2c_address") ∨
      (owner = .typing ∧ key = "sample_periods") ∨
      (owner = .lighting ∧ key ∈ ["effect", "hue", "sat", "val", "speed"]) := by
    simp only [List.mem_cons, List.not_mem_nil, or_false]
    grind
  · have hn := hbounded.address n (integer?_of_mem hplain (by decide) hmem)
    exact (fits_integer_iff (f := .address) (by decide) (by decide)).2 hn
  · have hint := integer?_of_mem hplain (by decide) hmem
    have hpos := hbounded.typing "sample_periods" (by decide) n hint
    have hle := hbounded.periods n hint
    refine (fits_integer_iff (f := .samplePeriods) (by decide) (by decide)).2 ⟨hpos, ?_⟩
    exact Int.le_trans hle (by decide)
  · have hn := hbounded.byte key hkey n (integer?_of_mem hplain (by decide) hmem)
    simp only [List.mem_cons, List.not_mem_nil, or_false] at hkey
    obtain rfl | rfl | rfl | rfl | rfl := hkey
    · exact (fits_integer_iff (f := .effect) (by decide) (by decide)).2 hn
    · exact (fits_integer_iff (f := .hue) (by decide) (by decide)).2 hn
    · exact (fits_integer_iff (f := .sat) (by decide) (by decide)).2 hn
    · exact (fits_integer_iff (f := .val) (by decide) (by decide)).2 hn
    · exact (fits_integer_iff (f := .speed) (by decide) (by decide)).2 hn

/-- The integer of a key that the checks bound from below fits unless it is too great. -/
theorem fits_iff_of_securedBelow (hsecured : (owner, key) ∈ securedBelow) {f : Field}
    (hnamed : Field.named? owner key.toList = some f) :
    Assignment.Fits ⟨owner, key, .integer n⟩ ↔ n ≤ f.kind.greatest := by
  have hpositive : 0 < n ∧ f.kind ≠ .flag ∧ f.kind.least = 1 := by
    simp only [securedBelow, List.mem_cons, List.not_mem_nil, or_false, Prod.mk.injEq] at hsecured
    obtain ⟨rfl, rfl⟩ | ⟨rfl, rfl⟩ | ⟨rfl, rfl⟩ | ⟨rfl, rfl⟩ := hsecured
    · refine ⟨hbounded.interval _ (by decide) n (integer?_of_mem hplain (by decide) hmem), ?_⟩
      obtain rfl := Option.some.inj (hnamed.symm.trans (by decide : _ = some Field.checkInterval))
      decide
    · refine ⟨hbounded.interval _ (by decide) n (integer?_of_mem hplain (by decide) hmem), ?_⟩
      obtain rfl := Option.some.inj (hnamed.symm.trans (by decide : _ = some Field.barInterval))
      decide
    · refine ⟨hbounded.typing _ (by decide) n (integer?_of_mem hplain (by decide) hmem), ?_⟩
      obtain rfl := Option.some.inj (hnamed.symm.trans (by decide : _ = some Field.scaleMax))
      decide
    · refine ⟨hbounded.typing _ (by decide) n (integer?_of_mem hplain (by decide) hmem), ?_⟩
      obtain rfl := Option.some.inj (hnamed.symm.trans (by decide : _ = some Field.sampleSeconds))
      decide
  obtain ⟨hpos, hflag, hleast⟩ := hpositive
  rw [fits_integer_iff hnamed hflag, hleast]
  exact and_iff_right hpos

end

/-! ## Documents that passed -/

/-- Tables that draw no complaint are sections of the settings. -/
theorem mem_sectionNames_of_sections {entries : List (String × Value)}
    (h : Checks.sections (.table entries) = []) :
    ∀ entry ∈ entries, entry.2.isTable = true → entry.1 ∈ Checks.sectionNames := by
  intro entry hentry htable
  have hnone : Checks.entry entry.1 entry.2 = [] := List.flatMap_eq_nil_iff.1 h entry hentry
  by_contra hnot
  rw [Checks.entry, if_neg hnot, if_pos htable] at hnone
  cases hnone

/-- **Documents that passed the checks.** The plain text of a document without complaints is
accepted exactly if every value that it assigns to the key of a field is one that the field takes.
The checks make sure of that for the integers of the bus address, the number of sample periods and
the numbers of the lighting. The integers of both intervals, the scale and the length of the window
they only bound from below, so that these fit if they are not too great for their fields. -/
theorem read_plainText_iff {entries : List (String × Value)} (hplain : Plain entries)
    (hchecked : Checks.all (.table entries) = []) :
    ((∃ s, Settings.read (plainText entries) = .ok s) ↔ ∀ a ∈ assignments entries, a.Fits) ∧
    (∀ owner key n, (owner, key) ∈ secured → ⟨owner, key, .integer n⟩ ∈ assignments entries →
      Assignment.Fits ⟨owner, key, .integer n⟩) ∧
    ∀ owner key n f, (owner, key) ∈ securedBelow → Field.named? owner key.toList = some f →
      ⟨owner, key, .integer n⟩ ∈ assignments entries →
      (Assignment.Fits ⟨owner, key, .integer n⟩ ↔ n ≤ f.kind.greatest) := by
  obtain ⟨hsections, hranges⟩ := List.append_eq_nil_iff.1 hchecked
  have hbounded := bounded_of_ranges hranges
  refine ⟨?_, ?_, ?_⟩
  · rw [Settings.read_eq_ok_iff_accepts, lines_plainText hplain]
    exact accepts_plainLines_iff hplain (mem_sectionNames_of_sections hsections)
  · exact fun _ _ _ hsecured hmem => fits_of_secured hplain hbounded hmem hsecured
  · exact fun _ _ _ _ hsecured hnamed hmem =>
      fits_iff_of_securedBelow hplain hbounded hmem hsecured hnamed

/-- A pin in quotes at the root, and a table with the scale. -/
def wideScale (scale : Int) : List (String × Value) :=
  [("led_pin", .string "GP15"), ("wpm", .table [("scale_max", .integer scale)])]

theorem plain_wideScale (scale : Int) : Plain (wideScale scale) where
  nodup := by simp [wideScale]
  shallow := by simp [wideScale, Value.isScalar, Value.isTable]
  nodup_inner h := by
    simp only [wideScale, List.mem_cons, Prod.mk.injEq, reduceCtorEq, and_false, false_or,
      Value.table.injEq, List.not_mem_nil, or_false] at h
    obtain ⟨-, rfl⟩ := h
    simp
  scalar_inner h := by
    simp only [wideScale, List.mem_cons, Prod.mk.injEq, reduceCtorEq, and_false, false_or,
      Value.table.injEq, List.not_mem_nil, or_false] at h
    obtain ⟨-, rfl⟩ := h
    simp [Value.isScalar]

theorem assignments_wideScale (scale : Int) :
    assignments (wideScale scale) =
      [⟨.root, "led_pin", .string "GP15"⟩, ⟨.typing, "scale_max", .integer scale⟩] := rfl

/-- A scale of 65535 passes the checks and is accepted. -/
theorem read_plainText_wideScale :
    Checks.all (.table (wideScale 65535)) = [] ∧
      ∃ s, Settings.read (plainText (wideScale 65535)) = .ok s := by
  have hchecked : Checks.all (.table (wideScale 65535)) = [] := by decide +kernel
  obtain ⟨hread, -, hbelow⟩ := read_plainText_iff (plain_wideScale 65535) hchecked
  refine ⟨hchecked, hread.2 ?_⟩
  have hmem : ⟨.typing, "scale_max", .integer 65535⟩ ∈ assignments (wideScale 65535) := by
    rw [assignments_wideScale]
    exact List.mem_cons_of_mem _ (List.mem_singleton_self _)
  rw [assignments_wideScale]
  intro a ha
  rcases List.mem_cons.1 ha with rfl | ha
  · intro f hf
    obtain rfl := Option.some.inj (hf.symm.trans (by decide : _ = some Field.ledPin))
    exact ⟨rfl, 15, by decide, by decide⟩
  · obtain rfl := List.mem_singleton.1 ha
    exact (hbelow .typing "scale_max" 65535 .scaleMax (by decide) (by decide) hmem).2 (by decide)

/-- A scale of 65536 passes the checks as well, but the settings have no room for it: the whole text
is refused. -/
theorem not_read_plainText_wideScale :
    Plain (wideScale 65536) ∧ Checks.sections (.table (wideScale 65536)) = [] ∧
      Checks.ranges (.table (wideScale 65536)) = [] ∧
      Settings.read (plainText (wideScale 65536)) = .error .badValue := by
  refine ⟨plain_wideScale 65536, by decide +kernel, by decide +kernel, ?_⟩
  rw [Settings.read, lines_plainText (plain_wideScale 65536)]
  decide +kernel

end StatusPanel.Document
