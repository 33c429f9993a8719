/-
  The shortest decimal of a binary number.

  A positive 64-bit float is `mantissa * 2 ^ exponent`, and every real between its two
  half-way points reads back as it (the half-way points themselves exactly when the mantissa is
  even). The shortest decimal is taken from the coarsest power-of-ten grid that has a point in
  that interval: of the two grid points next to the number, the nearer one that lies inside, the
  even one when both are equally near. All comparisons are made on natural numbers.
-/

namespace Questionnaire.Decimal

/-- The positive number `mantissa * 2 ^ exponent`, with the reals that round to it. -/
structure Binary where
  mantissa : Nat
  exponent : Int
  /-- The next smaller number has a smaller exponent, so the lower half-way point is nearer. -/
  opensBinade : Bool

/-- The binary number of a finite float's bits, its sign left out. -/
def Binary.ofBits (bits : UInt64) : Binary :=
  let fraction : Nat := bits.toNat % Nat.pow 2 52
  let biased : Nat := bits.toNat / Nat.pow 2 52 % Nat.pow 2 11
  if biased = 0 then ⟨fraction, -1074, false⟩
  else ⟨fraction + Nat.pow 2 52, Int.ofNat biased - 1075, fraction == 0 && biased != 1⟩

/-- `a * 10 ^ k` against `b * 2 ^ q`, both sides multiplied out to natural numbers. -/
def scaled (a : Nat) (k : Int) (b : Nat) (q : Int) : Nat × Nat :=
  (a * Nat.pow 10 k.toNat * Nat.pow 2 (-q).toNat, b * Nat.pow 2 q.toNat * Nat.pow 10 (-k).toNat)

namespace Binary

/-- Whether `c * 10 ^ k` reads back as the number. -/
def readsBack (b : Binary) (c : Nat) (k : Int) : Bool :=
  let quarter := b.exponent - 2
  let low := scaled c k (4 * b.mantissa - if b.opensBinade then 1 else 2) quarter
  let high := scaled c k (4 * b.mantissa + 2) quarter
  if b.mantissa % 2 = 0 then low.2 ≤ low.1 && high.1 ≤ high.2
  else low.2 < low.1 && high.1 < high.2

/-- The best point of the grid of multiples of `10 ^ k`, if one reads back. -/
def gridPoint? (b : Binary) (k : Int) : Option Nat :=
  let ratio := scaled 1 k b.mantissa b.exponent
  let below := ratio.2 / ratio.1
  let rest := ratio.2 % ratio.1
  let nearer :=
    if 2 * rest < ratio.1 then below
    else if ratio.1 < 2 * rest then below + 1
    else if below % 2 = 0 then below else below + 1
  let farther := if nearer = below then below + 1 else below
  if b.readsBack nearer k then some nearer
  else if b.readsBack farther k then some farther
  else none

end Binary

/-- The number `digits * 10 ^ exponent`. -/
structure Scientific where
  digits : Nat
  exponent : Int
deriving DecidableEq, Repr

/-- The exponents of ten from the largest float down to a grid that separates all floats. -/
def gridExponents : List Int :=
  (List.range 652).map fun (i : Nat) => (309 : Int) - i

/-- The shortest decimal that reads back as the number. -/
def shortest (b : Binary) : Scientific :=
  (gridExponents.findSome? fun k => (b.gridPoint? k).map (⟨·, k⟩)).getD ⟨0, 0⟩

end Questionnaire.Decimal
