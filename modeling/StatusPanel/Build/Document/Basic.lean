/-!
# Settings documents

A settings file as a document of named values in tables, for checks that do not know the settings.

## Main definitions

* `Document.Value`: the values of a document
* `Document.put`: an entry of a table
* `Document.inTable?`: a change of a table inside tables
* `Document.Value.ofEntries`: a table, in the order of its keys
-/

namespace StatusPanel

namespace Document

/-- A value of a document. -/
inductive Value
  | string (text : String)
  | integer (n : Int)
  | boolean (b : Bool)
  | float (x : Float)
  | array (values : List Value)
  /-- A table, its keys in ascending order. -/
  | table (entries : List (String × Value))
  deriving Inhabited

/-- The entries of a table with a value for a key, in place of the value it had. Keys are in the
order of their code points. -/
def put (key : String) (value : Value) : List (String × Value) → List (String × Value)
  | [] => [(key, value)]
  | (k, v) :: rest =>
    if key = k then (key, value) :: rest
    else if key < k then (key, value) :: (k, v) :: rest
    else (k, v) :: put key value rest

/-- The entries of a table with one more, unless its key is taken. -/
def add? (key : String) (value : Value) (entries : List (String × Value)) :
    Option (List (String × Value)) :=
  if (entries.lookup key).isSome then none else some (put key value entries)

/-- Changes the entries of the table at the end of a path of keys. Tables on the path that are not
there yet are made; a value on the path that is no table has no entries to change. -/
def inTable? (change : List (String × Value) → Option (List (String × Value))) :
    List String → List (String × Value) → Option (List (String × Value))
  | [], entries => change entries
  | key :: path, entries =>
    match entries.lookup key with
    | none => (inTable? change path []).map fun inner => put key (.table inner) entries
    | some (.table inner) =>
      (inTable? change path inner).map fun inner => put key (.table inner) entries
    | some _ => none

namespace Value

/-- The table of entries in any order. -/
def ofEntries (entries : List (String × Value)) : Value :=
  .table (entries.foldl (fun table entry => put entry.1 entry.2 table) [])

/-- The value of a key of a table. -/
def get? (key : String) : Value → Option Value
  | .table entries => entries.lookup key
  | _ => none

/-- The number that an integer is. -/
def integer? : Value → Option Int
  | .integer n => some n
  | _ => none

/-- Whether a value is a table. -/
def isTable : Value → Bool
  | .table _ => true
  | _ => false

end Value

@[simp] theorem lookup_put_self (key : String) (value : Value) (entries : List (String × Value)) :
    (put key value entries).lookup key = some value := by
  induction entries with
  | nil => simp [put]
  | cons e rest ih =>
    obtain ⟨k, v⟩ := e
    unfold put
    split
    · simp
    · rename_i h
      split
      · simp
      · have hk : (key == k) = false := by simpa using h
        rw [List.lookup_cons, hk]
        exact ih

end Document

end StatusPanel
