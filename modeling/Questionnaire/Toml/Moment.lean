import Questionnaire.Toml.Number

/-
  TOML dates and times.

  A date is a day of the calendar, a time of day may have a fraction of a second, and a date with
  a time may have an offset.
-/

namespace Questionnaire.Toml

/-- The number of exactly `n` digits at the start of a text. -/
def scanFixed (n : Nat) (cs : List Char) : Option (Nat × List Char) :=
  let ds := cs.take n
  if ds.length = n && ds.all Char.isDigit then some (digitsNumber 10 ds, cs.drop n) else none

/-- Two digits between bounds. -/
def scanTwo (low high : Nat) (cs : List Char) : Option (Nat × List Char) :=
  (scanFixed 2 cs).filter fun r => low ≤ r.1 && r.1 ≤ high

/-- The text behind a character. -/
def after? (c : Char) : List Char → Option (List Char)
  | d :: cs => if d = c then some cs else none
  | [] => none

/-- The number of days of a month. -/
def daysOf (year month : Nat) : Nat :=
  if month = 2 then
    if year % 4 = 0 && (year % 100 ≠ 0 || year % 400 = 0) then 29 else 28
  else if [4, 6, 9, 11].contains month then 30 else 31

/-- The text behind a date; none when it is no day of the calendar. -/
def afterDate? (cs : List Char) : Option (List Char) := do
  let (year, cs) ← scanFixed 4 cs
  let cs ← after? '-' cs
  let (month, cs) ← scanTwo 1 12 cs
  let cs ← after? '-' cs
  let (_, cs) ← scanTwo 1 (daysOf year month) cs
  return cs

/-- The text behind the fraction of a second, if there is one. -/
def skipFraction (cs : List Char) : List Char :=
  match cs with
  | '.' :: c :: rest => if c.isDigit then rest.dropWhile Char.isDigit else cs
  | cs => cs

/-- The text behind a time of day. -/
def afterTime? (cs : List Char) : Option (List Char) := do
  let (_, cs) ← scanTwo 0 23 cs
  let cs ← after? ':' cs
  let (_, cs) ← scanTwo 0 59 cs
  let cs ← after? ':' cs
  let (_, cs) ← scanTwo 0 60 cs
  return skipFraction cs

/-- The text behind an offset, if there is one; none when it is broken. -/
def afterOffset? (cs : List Char) : Option (List Char) :=
  match cs with
  | c :: rest =>
    if c = 'Z' || c = 'z' then some rest
    else if c = '+' || c = '-' then do
      let (_, rest) ← scanTwo 0 23 rest
      let rest ← after? ':' rest
      let (_, rest) ← scanTwo 0 59 rest
      return rest
    else some cs
  | [] => some []

/-- Whether a text goes on like a date, and then like a time. -/
def startsDate (cs : List Char) : Bool := ((scanFixed 4 cs).bind fun r => after? '-' r.2).isSome

/-- Whether a text goes on like a time. -/
def startsTime (cs : List Char) : Bool := ((scanTwo 0 23 cs).bind fun r => after? ':' r.2).isSome

/-- The text behind a date with the time that may follow it. -/
def afterDateTime? (cs : List Char) : Option (List Char) := do
  let cs ← afterDate? cs
  match cs with
  | c :: rest =>
    if (c = 'T' || c = 't' || c = ' ') && startsTime rest then
      afterOffset? (← afterTime? rest)
    else return cs
  | [] => return []

/-- A date, a time or both. -/
def scanMoment (cs : List Char) : Option (Value × List Char) :=
  let behind := if startsDate cs then afterDateTime? cs else afterTime? cs
  behind.map fun rest =>
    (.moment (String.ofList (cs.take (cs.length - rest.length))), rest)

end Questionnaire.Toml
