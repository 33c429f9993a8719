import Questionnaire.Json.Reader
import Questionnaire.Toml.Basic

/-
  TOML numbers.

  An integer is decimal, or in base sixteen, eight or two behind a mark, and fits in 64 bits with
  its sign. A float has a fraction, an exponent or both. Single underscores may stand between
  digits.
-/

namespace Questionnaire.Toml

/-! ## Integers -/

/-- Digits with single underscores between them, and the rest of the text. An underscore without a
digit behind it is a fault. -/
def scanDigits (isDigit : Char → Bool) : List Char → Option (List Char × List Char)
  | [] => none
  | c :: cs => if isDigit c then (more cs).map fun (s, rest) => (c :: s, rest) else none
where
  /-- Further digits. -/
  more : List Char → Option (List Char × List Char)
    | '_' :: c :: cs =>
      if isDigit c then (more cs).map fun (s, rest) => (c :: s, rest) else none
    | ['_'] => none
    | c :: cs =>
      if isDigit c then (more cs).map fun (s, rest) => (c :: s, rest) else some ([], c :: cs)
    | [] => some ([], [])

/-- A sign, if there is one. -/
def scanSign (cs : List Char) : List Char × List Char :=
  match cs with
  | '+' :: rest => (['+'], rest)
  | '-' :: rest => (['-'], rest)
  | cs => ([], cs)

/-- The digits of a decimal integer: a single zero, or digits that start with another one. -/
def scanDecimal (cs : List Char) : Option (List Char × List Char) :=
  match cs with
  | '0' :: rest => some (['0'], rest)
  | cs => scanDigits Char.isDigit cs

/-- The number of some digits in a base up to sixteen. -/
def digitsNumber (base : Nat) (ds : List Char) : Nat :=
  ds.foldl (fun n d => n * base + (Json.hexDigit? d).getD 0) 0

/-- An integer that fits in 64 bits. -/
def integer? (n : Int) : Option Value :=
  if -Int.pow 2 63 ≤ n && n < Int.pow 2 63 then some (.integer n) else none

/-- An integer in a base that its mark names. -/
def scanMarked (base : Nat) (isDigit : Char → Bool) (cs : List Char) :
    Option (Value × List Char) := do
  let (ds, rest) ← scanDigits isDigit cs
  return (← integer? (digitsNumber base ds), rest)

/-- A decimal integer. -/
def scanInteger (cs : List Char) : Option (Value × List Char) := do
  let (sign, rest) := scanSign cs
  let (ds, rest) ← scanDecimal rest
  let n : Int := digitsNumber 10 ds
  return (← integer? (if sign = ['-'] then -n else n), rest)

/-! ## Floats -/

/-- The exponent of a float. -/
def scanExponent (cs : List Char) : Option (List Char × List Char) :=
  match cs with
  | c :: rest => do
    if c ≠ 'e' ∧ c ≠ 'E' then none
    let (sign, rest) := scanSign rest
    let (ds, rest) ← scanDigits Char.isDigit rest
    return ('e' :: sign ++ ds, rest)
  | [] => none

/-- Whether an exponent may stand here. -/
def startsExponent (cs : List Char) : Bool :=
  match cs with
  | c :: _ => c = 'e' || c = 'E'
  | [] => false

/-- The part of a float behind its integer, with a mark that is none when there is no such part. -/
def scanFraction (cs : List Char) : Option (Option (List Char × List Char) × List Char) :=
  match cs with
  | '.' :: rest => do
    let (ds, rest) ← scanDigits Char.isDigit rest
    if startsExponent rest then
      let (e, rest) ← scanExponent rest
      return (some (ds, e), rest)
    else return (some (ds, []), rest)
  | cs =>
    if startsExponent cs then do
      let (e, rest) ← scanExponent cs
      return (some ([], e), rest)
    else some (none, cs)

/-- The number of digits of a numeral without leading zeros. -/
def significantLength (ds : List Char) : Nat := (ds.dropWhile (· = '0')).length

/-- The number of an exponent's text. -/
def exponentNumber (e : List Char) : Int :=
  match e with
  | _ :: '-' :: ds => -(digitsNumber 10 ds : Int)
  | _ :: '+' :: ds => digitsNumber 10 ds
  | _ :: ds => digitsNumber 10 ds
  | [] => 0

/-- Whether a positive decimal is too large for a float: at least 2^1024 less half a step. Numbers
far from the bound are told by their magnitude. -/
def overflows (whole fraction e : List Char) : Bool :=
  let digits := whole ++ fraction
  let exponent := exponentNumber e - fraction.length
  let magnitude : Int := significantLength digits + exponent
  if significantLength digits = 0 then false
  else if magnitude < 309 then false
  else if magnitude > 309 then true
  else
    let n := digitsNumber 10 digits
    let bound := Nat.pow 2 1024 - Nat.pow 2 970
    if exponent ≥ 0 then bound ≤ n * Nat.pow 10 exponent.toNat
    else bound * Nat.pow 10 (-exponent).toNat ≤ n

/-- A number: an integer or a float. A float must not exceed all finite ones. -/
def scanNumber (cs : List Char) : Option (Value × List Char) :=
  match cs with
  | '0' :: 'x' :: rest => scanMarked 16 (fun c => (Json.hexDigit? c).isSome) rest
  | '0' :: 'o' :: rest => scanMarked 8 (fun c => '0' ≤ c && c ≤ '7') rest
  | '0' :: 'b' :: rest => scanMarked 2 (fun c => c = '0' || c = '1') rest
  | cs => do
    let (sign, behind) := scanSign cs
    let (whole, rest) ← scanDecimal behind
    match ← scanFraction rest with
    | (some (fraction, e), rest) =>
      if sign ≠ ['-'] && overflows whole fraction e then none
      else some (.float (String.ofList (sign ++ whole ++ '.' :: fraction ++ e)), rest)
    | (none, _) => scanInteger cs

/-- A float that is no number of digits, behind its sign. -/
def scanSpecial (sign : List Char) (cs : List Char) : Option (Value × List Char) :=
  match cs with
  | 'i' :: 'n' :: 'f' :: rest => some (.float (String.ofList (sign ++ ['i', 'n', 'f'])), rest)
  | 'n' :: 'a' :: 'n' :: rest => some (.float (String.ofList (sign ++ ['n', 'a', 'n'])), rest)
  | _ => none

end Questionnaire.Toml
