import StatusPanel.Build.Document.Basic
import StatusPanel.Build.Document.Key
import StatusPanel.Text.Lines

/-!
# Reading documents

The reader knows comments, table headers, and assignments of integers, truth values and quoted
text. A key names a table inside tables by its path, and tables that are named are made. No table
is defined both by a header and by keys, or by two headers, and no value is assigned twice.

## Main definitions

* `Document.integer?`: the integer that a word is
* `Document.value?`: the value at the start of a text
* `Document.item?`: what a line says
* `Document.read`: the document of a text
-/

namespace StatusPanel.Document

open Text

/-! ## Values -/

/-- The value of digits of a base that continue the value `acc`. A single underscore may stand
between two digits. -/
def groupedFrom? (base acc : Nat) (afterDigit : Bool) : List Char → Option Nat
  | [] => if afterDigit then some acc else none
  | c :: rest =>
    if c = '_' then if afterDigit then groupedFrom? base acc false rest else none
    else (digitValue? base c).bind fun digit => groupedFrom? base (acc * base + digit) true rest

/-- The value of decimal digits. No zero leads. -/
def decimal? : List Char → Option Nat
  | ['0'] => some 0
  | '0' :: _ => none
  | digits => groupedFrom? 10 0 false digits

/-- The integer that a word writes: decimal with or without a sign, or without a sign in base
sixteen, eight or two. -/
def integerOf? : List Char → Option Int
  | '0' :: 'x' :: digits => (groupedFrom? 16 0 false digits).map Int.ofNat
  | '0' :: 'o' :: digits => (groupedFrom? 8 0 false digits).map Int.ofNat
  | '0' :: 'b' :: digits => (groupedFrom? 2 0 false digits).map Int.ofNat
  | '+' :: digits => (decimal? digits).map Int.ofNat
  | '-' :: digits => (decimal? digits).map fun n => -(n : Int)
  | digits => (decimal? digits).map Int.ofNat

/-- The integer of 64 bits that a word is. -/
def integer? (word : List Char) : Option Int :=
  (integerOf? word).filter fun n => -9223372036854775808 ≤ n && n ≤ 9223372036854775807

/-- The value that a word is. -/
def wordValue? (word : List Char) : Option Value :=
  if word = "true".toList then some (.boolean true)
  else if word = "false".toList then some (.boolean false)
  else (integer? word).map .integer

/-- Whether a character belongs to a word: neither a gap nor a comment starts there. -/
def isWordChar (c : Char) : Bool := !isGapChar c && c != '#'

/-- The value at the start, and what is behind it. -/
def value? (s : List Char) : Option (Value × List Char) :=
  match quoted? s with
  | some (text, rest) => some (.string text, rest)
  | none => (wordValue? (s.takeWhile isWordChar)).map fun v => (v, s.dropWhile isWordChar)

/-! ## Lines -/

/-- What a line of a document says. -/
inductive Item
  | silent
  | header (path : List String)
  | entry (path : List String) (value : Value)

/-- Whether nothing but a gap and a comment is left of a line. -/
def isOver (s : List Char) : Bool :=
  match skipGap s with
  | [] => true
  | c :: comment => c == '#' && comment.all isTextChar

/-- What a line behind an opening bracket says. -/
def header? (s : List Char) : Option Item :=
  match path? (skipGap s) with
  | some (path, ']' :: rest) => if isOver rest then some (.header path) else none
  | _ => none

/-- What a line that assigns a value says. -/
def entry? (s : List Char) : Option Item :=
  match path? s with
  | some (path, '=' :: rest) =>
    match value? (skipGap rest) with
    | some (value, rest) => if isOver rest then some (.entry path value) else none
    | none => none
  | _ => none

/-- What a line says, if it is well formed. -/
def item? (line : List Char) : Option Item :=
  if isOver line then some .silent
  else
    match skipGap line with
    | '[' :: rest => header? rest
    | s => entry? s

/-! ## Documents -/

/-- A document read so far. -/
structure Draft where
  /-- The entries of the root. -/
  root : List (String × Value) := []
  /-- The path of the open table. -/
  opened : List String := []
  /-- The paths of the tables that headers defined. -/
  byHeader : List (List String) := []
  /-- The paths of the tables that keys with dots defined. -/
  byKey : List (List String) := []

namespace Draft

/-- The paths of the tables that a key in the open table is inside of. -/
def owners (d : Draft) (path : List String) : List (List String) :=
  (List.range (path.length - 1)).map fun n => d.opened ++ path.take (n + 1)

/-- The draft with the table of a header open, unless it is defined already. -/
def openTable? (d : Draft) (path : List String) : Option Draft :=
  if path ∈ d.byHeader ∨ path ∈ d.byKey then none
  else
    (inTable? some path d.root).map fun root =>
      { d with root, opened := path, byHeader := path :: d.byHeader }

/-- The draft with a value for a key in the open table, unless there is one or a header defined a
table on the way. -/
def assign? (d : Draft) (path : List String) (value : Value) : Option Draft :=
  if (d.owners path).any (· ∈ d.byHeader) then none
  else
    path.getLast?.bind fun name =>
      (inTable? (add? name value) (d.opened ++ path.dropLast) d.root).map fun root =>
        { d with root, byKey := d.owners path ++ d.byKey }

/-- The draft after an item, if the item may stand there. -/
def addItem? (d : Draft) : Item → Option Draft
  | .silent => some d
  | .header path => d.openTable? path
  | .entry path value => d.assign? path value

end Draft

/-- The draft after lines, or the number of the faulty line. -/
def readLines (d : Draft) (number : Nat) : List (List Char) → Except Nat Draft
  | [] => .ok d
  | line :: rest =>
    match (item? line).bind d.addItem? with
    | some d => readLines d (number + 1) rest
    | none => .error number

/-- A text without the byte order mark at its start. -/
def withoutMark : List Char → List Char
  | '\ufeff' :: rest => rest
  | s => s

/-- The document of a text, or a complaint about its first faulty line. -/
def read (text : String) : Except String Value :=
  match readLines {} 1 (lines (withoutMark text.toList)) with
  | .ok d => .ok (.table d.root)
  | .error number => .error s!"parse error at line {number}"

end StatusPanel.Document
