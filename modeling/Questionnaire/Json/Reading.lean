import Questionnaire.Json.Numeral

/-
  What a decoder meets when it reads JSON, from text or from a value.

  Text may break off or go wrong anywhere, and only the part that a decoder looks at counts: a
  wrong shape is reported before a fault that comes later in the text, and the value of an
  ignored key is passed over by simpler rules. So a text is turned into a `Reading`, a tree with
  the same containers as a JSON value in which a `Flaw` stands wherever the text could not be
  understood. A JSON value gives a reading without flaws.
-/

namespace Questionnaire.Json

/-- A place in a text that cannot be read, and what it means to those who come there. -/
structure Flaw where
  /-- The fault for one who wants the value there. -/
  read : Fault
  /-- The fault for one who passes over it, if there is one. -/
  skipped : Option Fault
  /-- The fault for one who wants one of several names there. -/
  named : Fault
deriving DecidableEq, Repr

/-- A flaw that is the same to all. -/
def Flaw.stop (f : Fault) : Flaw := ⟨f, some f, f⟩

/-- A flaw of a value that stands in well-formed text: a number out of range, a lone surrogate. -/
def Flaw.inner : Flaw := ⟨.malformed, none, .malformed⟩

/-- A value as it is met in a text or in a JSON value. -/
inductive Reading
  | null
  | bool (b : Bool)
  | number (n : Number)
  | text (s : String)
  /-- An array; `deep` when it is nested deeper than a decoder goes, `ending` when the text goes
  wrong behind its items. -/
  | array (deep : Bool) (items : List Reading) (ending : Option Fault)
  /-- An object, its keys possibly flawed. -/
  | object (deep : Bool) (entries : List (Except Flaw String × Reading)) (ending : Option Fault)
  | flawed (flaw : Flaw)

/-- Where a reading comes from. -/
inductive Origin
  | text
  | value
deriving DecidableEq, Repr

/-- The fault of a surplus or misplaced member: a text has more than it should, a value the wrong
shape. -/
def Origin.surplus : Origin → Fault
  | .text => .malformed
  | .value => .mismatch

namespace Reading

/-- The fault for a decoder that wants another kind of value. -/
def unexpected : Reading → Fault
  | .flawed flaw => flaw.read
  | _ => .mismatch

mutual

/-- The fault met when a value is passed over. -/
def skipFault : Reading → Option Fault
  | .array _ items ending => (skipItems items).or ending
  | .object _ entries ending => (skipEntries entries).or ending
  | .flawed flaw => flaw.skipped
  | _ => none

/-- The first fault met when the items of an array are passed over. -/
def skipItems : List Reading → Option Fault
  | [] => none
  | item :: items => (skipFault item).or (skipItems items)

/-- The first fault met when the entries of an object are passed over. -/
def skipEntries : List (Except Flaw String × Reading) → Option Fault
  | [] => none
  | (.error flaw, value) :: entries =>
    (flaw.skipped.or (skipFault value)).or (skipEntries entries)
  | (.ok _, value) :: entries => (skipFault value).or (skipEntries entries)

end

/-- Succeeds unless there is a fault. -/
def expectEnd : Option Fault → Except Fault Unit
  | none => .ok ()
  | some f => .error f

mutual

/-- The JSON value of a reading, repeated keys kept. -/
def content : Reading → Except Fault Json
  | .null => .ok .null
  | .bool b => .ok (.bool b)
  | .number n => .ok (.number n)
  | .text s => .ok (.text s)
  | .array deep items ending => do
    if deep then throw .malformed
    let items ← contentItems items
    expectEnd ending
    return .array items
  | .object deep entries ending => do
    if deep then throw .malformed
    let entries ← contentEntries entries
    expectEnd ending
    return .object entries
  | .flawed flaw => .error flaw.read

/-- The items of an array as JSON values. -/
def contentItems : List Reading → Except Fault (List Json)
  | [] => .ok []
  | item :: items => do
    let first ← content item
    return first :: (← contentItems items)

/-- The entries of an object as JSON values. -/
def contentEntries : List (Except Flaw String × Reading) → Except Fault (List (String × Json))
  | [] => .ok []
  | (.error flaw, _) :: _ => .error flaw.read
  | (.ok key, value) :: entries => do
    let first ← content value
    return (key, first) :: (← contentEntries entries)

end

end Reading

mutual

/-- The reading of a JSON value. -/
def reading : Json → Reading
  | .null => .null
  | .bool b => .bool b
  | .number n => .number n
  | .text s => .text s
  | .array items => .array false (readingItems items) none
  | .object entries => .object false (readingEntries entries) none

/-- The readings of a list of values. -/
def readingItems : List Json → List Reading
  | [] => []
  | item :: items => reading item :: readingItems items

/-- The readings of a list of entries. -/
def readingEntries : List (String × Json) → List (Except Flaw String × Reading)
  | [] => []
  | (key, value) :: entries => (.ok key, reading value) :: readingEntries entries

end

/-! ## Nesting -/

mutual

/-- How many containers stand inside one another. -/
def Reading.depth : Reading → Nat
  | .array _ items _ => itemsDepth items + 1
  | .object _ entries _ => entriesDepth entries + 1
  | _ => 0

/-- The greatest depth among the items of an array. -/
def Reading.itemsDepth : List Reading → Nat
  | [] => 0
  | item :: items => max (Reading.depth item) (Reading.itemsDepth items)

/-- The greatest depth among the values of an object. -/
def Reading.entriesDepth : List (Except Flaw String × Reading) → Nat
  | [] => 0
  | (_, value) :: entries => max (Reading.depth value) (Reading.entriesDepth entries)

end

end Questionnaire.Json
