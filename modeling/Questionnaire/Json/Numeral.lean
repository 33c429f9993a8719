import Questionnaire.Json.Basic

/-
  JSON numerals and the numbers they stand for.

  A numeral without point and exponent is an integer as long as it fits in 64 bits: a natural
  number below 2^64, or a negative one down to -2^63. Every other numeral is a float. Its digits
  are taken into a 64-bit significand until one no longer fits; digits left over before the point
  count as powers of ten, digits left over behind it do not count. The float is the significand
  multiplied or divided by one power of ten; exponents below -308 are divided away in steps. A
  float too large to be finite is out of range.
-/

namespace Questionnaire.Json

/-- Why a JSON text or value cannot be read: it is not JSON, it ends early, or it has the wrong
shape. -/
inductive Fault
  | malformed
  | truncated
  | mismatch
deriving DecidableEq, Repr

/-- A numeral by its parts. -/
structure Numeral where
  negative : Bool
  whole : List Nat
  /-- The digits behind the point; none without a point. -/
  fraction : List Nat
  /-- Whether the exponent is negative, and its digits. -/
  exponent : Option (Bool × List Nat)
deriving Repr

/-! ## Scanning -/

/-- The leading digits of a text, and what follows them. -/
def takeDigits : List Char → List Nat × List Char
  | c :: cs =>
    if c.isDigit then ((c.toNat - '0'.toNat) :: (takeDigits cs).1, (takeDigits cs).2)
    else ([], c :: cs)
  | [] => ([], [])

/-- One or more digits; the text may end or go on with anything behind them. -/
def someDigits (cs : List Char) : Except Fault (List Nat × List Char) :=
  match takeDigits cs with
  | ([], []) => .error .truncated
  | ([], _ :: _) => .error .malformed
  | found => .ok found

/-- The digits before the point: a single zero, or digits that start with another one. -/
def scanWhole (cs : List Char) : Except Fault (List Nat × List Char) :=
  match cs with
  | '0' :: rest => if (takeDigits rest).1.isEmpty then .ok ([0], rest) else .error .malformed
  | cs => someDigits cs

/-- The point and the digits behind it, if there is a point. -/
def scanFraction (cs : List Char) : Except Fault (List Nat × List Char) :=
  match cs with
  | '.' :: rest => someDigits rest
  | cs => .ok ([], cs)

/-- The exponent, if there is one. -/
def scanExponent (cs : List Char) : Except Fault (Option (Bool × List Nat) × List Char) :=
  match cs with
  | c :: rest =>
    if c = 'e' ∨ c = 'E' then
      match rest with
      | '-' :: rest => (someDigits rest).map fun r => (some (true, r.1), r.2)
      | '+' :: rest => (someDigits rest).map fun r => (some (false, r.1), r.2)
      | rest => (someDigits rest).map fun r => (some (false, r.1), r.2)
    else .ok (none, cs)
  | [] => .ok (none, [])

/-- The numeral at the start of a text, and what follows it. -/
def scanNumeral (cs : List Char) : Except Fault (Numeral × List Char) := do
  let (negative, cs) := match cs with
    | '-' :: rest => (true, rest)
    | cs => (false, cs)
  let (whole, cs) ← scanWhole cs
  let (fraction, cs) ← scanFraction cs
  let (exponent, cs) ← scanExponent cs
  return (⟨negative, whole, fraction, exponent⟩, cs)

/-! ## Value -/

/-- A significand with further digits taken in while it stays below 2^64, and the digits left. -/
def absorb (significand : Nat) : List Nat → Nat × List Nat
  | [] => (significand, [])
  | d :: ds =>
    if significand * 10 + d < UInt64.size then absorb (significand * 10 + d) ds
    else (significand, d :: ds)

/-- The number written by a list of digits. -/
def ofDigits (ds : List Nat) : Nat := ds.foldl (fun n d => n * 10 + d) 0

/-- The float next to `10 ^ n`. -/
def powerOfTen (n : Nat) : Float := Float.ofScientific 1 false n

/-- A float times a power of ten, unless the product is too large. -/
def scale (f : Float) (exponent : Int) : Option Float :=
  if exponent ≥ 0 then
    if exponent ≤ 308 then
      let product := f * powerOfTen exponent.toNat
      if product.isInf then none else some product
    else if f == 0.0 then some f else none
  else if exponent ≥ -308 then some (f / powerOfTen (-exponent).toNat)
  else if f == 0.0 then some f
  else scale (f / powerOfTen 308) (exponent + 308)
termination_by (-exponent).toNat
decreasing_by omega

/-- The float of a significand and an exponent, with a sign. -/
def float (negative : Bool) (significand : Nat) (exponent : Int) : Option Number :=
  (scale (Float.ofNat significand) exponent).map fun f =>
    .real (if negative then -f else f).toBits

/-- The greatest exponent that is counted. -/
def exponentLimit : Nat := Nat.pow 2 31 - 1

/-- The number of a numeral; none when it is out of range. -/
def Numeral.value (n : Numeral) : Option Number :=
  let (whole, spare) := absorb 0 n.whole
  if n.fraction.isEmpty && n.exponent.isNone then
    if !spare.isEmpty then float n.negative whole spare.length
    else if !n.negative then some (.natural whole)
    else if 0 < whole && whole ≤ Nat.pow 2 63 then some (.negative whole)
    else float true whole 0
  else
    let (significand, unused) := absorb whole n.fraction
    let places : Int := (spare.length : Int) - ((n.fraction.length : Int) - unused.length)
    match n.exponent with
    | none => float n.negative significand places
    | some (below, digits) =>
      let exponent := ofDigits digits
      if exponent > exponentLimit then
        if significand != 0 && !below then none else float n.negative 0 0
      else float n.negative significand (if below then places - exponent else places + exponent)

end Questionnaire.Json
