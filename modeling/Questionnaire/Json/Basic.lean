import Questionnaire.Decimal.Layout

/-
  JSON values and the text they are written as.

  An object keeps the order of its entries. Text is written compactly or with two spaces per
  level; a `Layout` holds the difference, which is only where lines break and whether a blank
  follows a colon.
-/

namespace Questionnaire

/-- A JSON number: a natural number, a negative one by its magnitude, or a float by its bits. -/
inductive Json.Number
  | natural (n : Nat)
  | negative (magnitude : Nat)
  | real (bits : UInt64)
deriving DecidableEq, Repr

/-- A JSON value. -/
inductive Json
  | null
  | bool (b : Bool)
  | number (n : Json.Number)
  | text (s : String)
  | array (items : List Json)
  | object (entries : List (String × Json))
deriving Repr

namespace Json

instance : Inhabited Json := ⟨.null⟩

/-- An optional value, `null` standing for none. -/
def ofOption {α : Type} (write : α → Json) : Option α → Json
  | none => .null
  | some a => write a

/-- A natural number as a JSON value. -/
def ofNat (n : Nat) : Json := .number (.natural n)

/-! ## Repeated keys -/

/-- Entries with a value put under a key: in the place of the key's first entry, else at the end. -/
def put (key : String) (value : Json) : List (String × Json) → List (String × Json)
  | [] => [(key, value)]
  | entry :: rest => if entry.1 = key then (key, value) :: rest else entry :: put key value rest

mutual

/-- The value with repeated keys resolved at every depth: the last value in the first place. -/
def resolve : Json → Json
  | .array items => .array (resolveItems items)
  | .object entries => .object (resolveEntries [] entries)
  | scalar => scalar

/-- The items of an array, each resolved. -/
def resolveItems : List Json → List Json
  | [] => []
  | item :: items => resolve item :: resolveItems items

/-- The entries of an object put one by one behind those already resolved. -/
def resolveEntries (done : List (String × Json)) : List (String × Json) → List (String × Json)
  | [] => done
  | (key, value) :: entries => resolveEntries (put key (resolve value) done) entries

end

/-! ## Text -/

/-- The text of a number. -/
def Number.toText : Number → String
  | .natural n => String.ofList (Decimal.digitChars n)
  | .negative m => String.ofList ('-' :: Decimal.digitChars m)
  | .real bits => Decimal.floatText bits

/-- How a character is written inside a string. -/
def escape (c : Char) : List Char :=
  if c = '"' then ['\\', '"']
  else if c = '\\' then ['\\', '\\']
  else if 0x20 ≤ c.toNat then [c]
  else if c.toNat = 0x08 then ['\\', 'b']
  else if c.toNat = 0x09 then ['\\', 't']
  else if c.toNat = 0x0A then ['\\', 'n']
  else if c.toNat = 0x0C then ['\\', 'f']
  else if c.toNat = 0x0D then ['\\', 'r']
  else ['\\', 'u', '0', '0', Nat.digitChar (c.toNat / 16), Nat.digitChar (c.toNat % 16)]

/-- A string with its quotes. -/
def quote (s : String) : List Char :=
  '"' :: s.toList.flatMap escape ++ ['"']

/-- Where lines break: nowhere, or before each member with this many blanks per level. -/
structure Layout where
  indent : Option Nat

/-- One line without blanks. -/
def compact : Layout := ⟨none⟩

/-- A line for each member, two blanks per level. -/
def pretty : Layout := ⟨some 2⟩

/-- The start of a line at a nesting level. -/
def Layout.line (l : Layout) (level : Nat) : List Char :=
  match l.indent with
  | none => []
  | some width => '\n' :: List.replicate (width * level) ' '

/-- What stands between a key and its value. -/
def Layout.colon (l : Layout) : List Char :=
  if l.indent.isSome then [':', ' '] else [':']

mutual

/-- The text of a value that starts at a nesting level. -/
def render (l : Layout) (level : Nat) : Json → List Char
  | .null => ['n', 'u', 'l', 'l']
  | .bool true => ['t', 'r', 'u', 'e']
  | .bool false => ['f', 'a', 'l', 's', 'e']
  | .number n => n.toText.toList
  | .text s => quote s
  | .array [] => ['[', ']']
  | .array (item :: items) =>
    '[' :: l.line (level + 1) ++ render l (level + 1) item ++ renderItems l (level + 1) items ++
      l.line level ++ [']']
  | .object [] => ['\x7b', '\x7d']
  | .object ((key, value) :: entries) =>
    '\x7b' :: l.line (level + 1) ++ quote key ++ l.colon ++ render l (level + 1) value ++
      renderEntries l (level + 1) entries ++ l.line level ++ ['\x7d']

/-- The text of further items of an array, a comma before each. -/
def renderItems (l : Layout) (level : Nat) : List Json → List Char
  | [] => []
  | item :: items => ',' :: l.line level ++ render l level item ++ renderItems l level items

/-- The text of further entries of an object, a comma before each. -/
def renderEntries (l : Layout) (level : Nat) : List (String × Json) → List Char
  | [] => []
  | (key, value) :: entries =>
    ',' :: l.line level ++ quote key ++ l.colon ++ render l level value ++
      renderEntries l level entries

end

/-- The text of a value. -/
def toText (l : Layout) (j : Json) : String := String.ofList (render l 0 j)

end Json
end Questionnaire
