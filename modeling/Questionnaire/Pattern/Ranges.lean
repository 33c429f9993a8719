import Questionnaire.Text.Blank

/-
  Sets of characters as ascending ranges of code points.

  A range is written as its two ends in hexadecimal with a dash between them, or as one number
  when it holds a single code point; ranges are separated by blanks.
-/

namespace Questionnaire.Pattern

/-- Ascending ranges of code points, both ends included. -/
abbrev Ranges := Array (Nat × Nat)

namespace Ranges

/-- The number of a hexadecimal numeral in small letters. -/
def hexadecimal (cs : List Char) : Nat :=
  cs.foldl (fun n c =>
    n * 16 + if c.isDigit then c.toNat - '0'.toNat else c.toNat - 'a'.toNat + 10) 0

/-- The range of a word. -/
def ofWord (word : List Char) : Nat × Nat :=
  match Text.splitChars '-' word with
  | [low, high] => (hexadecimal low, hexadecimal high)
  | _ => (hexadecimal word, hexadecimal word)

/-- The ranges written on lines. -/
def ofLines (lines : List String) : Ranges :=
  (lines.flatMap fun line => (Text.splitChars ' ' line.toList).map ofWord).toArray

/-- Whether one of the ranges between two positions holds a code point. -/
def holdsBetween (r : Ranges) (n : Nat) (low high : Nat) : Bool :=
  if _ : low < high then
    let middle := (low + high) / 2
    let range := r.getD middle (1, 0)
    if n < range.1 then holdsBetween r n low middle
    else if range.2 < n then holdsBetween r n (middle + 1) high
    else true
  else false
termination_by high - low
decreasing_by all_goals omega

/-- Whether one of the ranges holds a code point. -/
def holds (r : Ranges) (n : Nat) : Bool := holdsBetween r n 0 r.size

end Ranges
end Questionnaire.Pattern
