/-
  TOML tables and the rules by which they grow.

  A table is opened by a header, implied by a longer header, made by a dotted key, or written
  inline; the first kind of mention decides what may be added later. A header may open a table
  that was only implied, once. A dotted key may add to tables that were not opened by a header,
  and its last table must be one that dotted keys made. Inline tables are closed. A header of an
  array of tables adds one more table, which later headers mean when they go through the array.
-/

namespace Questionnaire.Toml

/-- How a table came to be. -/
inductive TableKind
  | header
  | implied
  | dotted
  | inlined
deriving DecidableEq, Repr

/-- A value. Floats, dates and times are kept as they are written. -/
inductive Value
  | text (s : String)
  | bool (b : Bool)
  | integer (n : Int)
  | float (numeral : String)
  | moment (s : String)
  | array (items : List Value)
  | table (kind : TableKind) (entries : List (String × Value))
  /-- An array of tables made by headers. -/
  | tables (items : List (List (String × Value)))
deriving Repr

/-- The entries of a table, in the order in which they were added. -/
abbrev Entries := List (String × Value)

namespace Entries

/-- The value of a key. -/
def get? (es : Entries) (key : String) : Option Value := es.lookup key

/-- The entries with the value of a key replaced. -/
def set (es : Entries) (key : String) (v : Value) : Entries :=
  es.map fun e => if e.1 = key then (key, v) else e

/-- The entries with a value under a new key; none when the key is there. -/
def add? (es : Entries) (key : String) (v : Value) : Option Entries :=
  if (es.get? key).isSome then none else some (es ++ [(key, v)])

/-- Whether a key that makes tables of kind `made` may go on through a table of another kind. -/
def mayEnter (made kind : TableKind) : Bool :=
  kind ≠ .inlined && !(made = .dotted && kind = .header)

/-- The entries with `change` done to the table at the end of a path. Tables missing on the way are
made, of kind `made`. -/
def changeAt (made : TableKind) (change : TableKind → Entries → Option Entries) :
    List String → TableKind → Entries → Option Entries
  | [], kind, es => change kind es
  | key :: path, _, es =>
    match es.get? key with
    | none => (changeAt made change path made []).map fun sub => es ++ [(key, .table made sub)]
    | some (.table kind sub) =>
      if mayEnter made kind then
        (changeAt made change path kind sub).map fun sub => es.set key (.table kind sub)
      else none
    | some (.tables items) =>
      match items.getLast? with
      | some last => (changeAt made change path .header last).map fun last =>
        es.set key (.tables (items.dropLast ++ [last]))
      | none => none
    | some _ => none

/-- A value added under a dotted key, given by its path and its last part. -/
def addDotted (path : List String) (key : String) (v : Value) :
    TableKind → Entries → Option Entries :=
  changeAt .dotted (fun kind es =>
    if path.isEmpty || kind = .dotted then es.add? key v else none) path

/-- The entries with the table of a key opened by a header. -/
def openTable (key : String) (_ : TableKind) (es : Entries) : Option Entries :=
  match es.get? key with
  | none => some (es ++ [(key, .table .header [])])
  | some (.table .implied sub) => some (es.set key (.table .header sub))
  | some _ => none

/-- The entries with one more table in the array of a key. -/
def appendTable (key : String) (_ : TableKind) (es : Entries) : Option Entries :=
  match es.get? key with
  | none => some (es ++ [(key, .tables [[]])])
  | some (.tables items) => some (es.set key (.tables (items ++ [[]])))
  | some _ => none

end Entries

/-! ## Documents -/

/-- A document as it is read: its root table and the table that keys are added to. -/
structure Draft where
  root : Entries := []
  path : List String := []

namespace Draft

/-- Adds a value to the current table. -/
def add (d : Draft) (path : List String) (key : String) (v : Value) : Option Draft :=
  (Entries.changeAt .implied (Entries.addDotted path key v) d.path .header d.root).map fun root =>
    { d with root }

/-- Makes the table at a path the current one. -/
def openTable (d : Draft) (path : List String) (key : String) : Option Draft :=
  (Entries.changeAt .implied (Entries.openTable key) path .header d.root).map fun root =>
    { root, path := path ++ [key] }

/-- Makes a new table in the array at a path the current one. -/
def appendTable (d : Draft) (path : List String) (key : String) : Option Draft :=
  (Entries.changeAt .implied (Entries.appendTable key) path .header d.root).map fun root =>
    { root, path := path ++ [key] }

end Draft
end Questionnaire.Toml
