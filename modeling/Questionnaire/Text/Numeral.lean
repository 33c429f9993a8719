import Questionnaire.Text.Blank

/-
  Decimal numerals below a bound.
-/

namespace Questionnaire.Text

/-- The number of a list of decimal digits; none when a character is no digit. -/
def digitsValue? (cs : List Char) : Option Nat :=
  cs.foldl (fun n c => n.bind fun n =>
    if c.isDigit then some (n * 10 + (c.toNat - '0'.toNat)) else none) (some 0)

/-- The number of a numeral: an optional plus sign, then digits. -/
def natural? (cs : List Char) : Option Nat :=
  let digits := match cs with
    | '+' :: rest => rest
    | cs => cs
  if digits.isEmpty then none else digitsValue? digits

/-- The number of a numeral that fits in 64 bits. -/
def word64? (cs : List Char) : Option UInt64 :=
  (natural? cs).bind fun n => if n < UInt64.size then some (UInt64.ofNat n) else none

end Questionnaire.Text
