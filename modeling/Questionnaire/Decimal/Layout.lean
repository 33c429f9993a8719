import Questionnaire.Decimal.Shortest

/-
  The text of a floating-point number.

  A number is written with the digits of its shortest decimal. A leading digit at 10^-5 up to
  10^15 gives plain notation, which always has a point and a digit behind it; any other gives
  one digit before the point and an exponent with its sign.
-/

namespace Questionnaire.Decimal

/-- Where plain notation ends. -/
structure Layout where
  least : Int
  greatest : Int

/-- Plain notation from 0.00001 up to below 10^16. -/
def numberLayout : Layout := ⟨-5, 15⟩

/-- The decimal digits of a natural number, most significant first. -/
def digitChars (n : Nat) : List Char := Nat.toDigits 10 n

/-- Digits with the zeros at their end cut off. -/
def significant (digits : List Char) : List Char :=
  (digits.reverse.dropWhile (· == '0')).reverse

/-- Digits in plain notation, the first of them standing for `10 ^ leading`. -/
def plainText (digits : List Char) (leading : Int) : List Char :=
  if leading < 0 then
    '0' :: '.' :: List.replicate ((-leading).toNat - 1) '0' ++ digits
  else
    let whole := leading.toNat + 1
    let fraction := digits.drop whole
    digits.take whole ++ List.replicate (whole - digits.length) '0' ++ '.' ::
      (if fraction.isEmpty then ['0'] else fraction)

/-- Digits with an exponent, the first of them standing for `10 ^ leading`. -/
def exponentText (digits : List Char) (leading : Int) : List Char :=
  let mantissa := match digits with
    | d :: e :: rest => d :: '.' :: e :: rest
    | short => short
  mantissa ++ 'e' :: (if leading < 0 then '-' else '+') :: digitChars leading.natAbs

/-- A positive decimal number as text. -/
def Scientific.text (format : Layout) (s : Scientific) : List Char :=
  let all := digitChars s.digits
  let leading := s.exponent + (all.length : Int) - 1
  let digits := significant all
  if format.least ≤ leading && leading ≤ format.greatest then plainText digits leading
  else exponentText digits leading

/-- The text of a finite float, given by its bits. -/
def floatText (bits : UInt64) : String :=
  let sign := if bits.toNat / Nat.pow 2 63 = 0 then [] else ['-']
  let b := Binary.ofBits bits
  String.ofList (sign ++
    if b.mantissa = 0 then ['0', '.', '0'] else (shortest b).text numberLayout)

end Questionnaire.Decimal
