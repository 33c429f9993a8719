/-
  Text as UTF-16 code units.

  A list of code units may hold surrogates without a partner. Decoding keeps one mark for each of
  them, so that the same pass answers both questions asked of such a list: is it well formed, and
  what does it read as when every unpaired surrogate becomes U+FFFD.
-/

namespace Questionnaire.Text.Utf16

/-- A unit that opens a pair. -/
def isLeading (u : UInt16) : Bool := 0xD800 ≤ u.toNat && u.toNat ≤ 0xDBFF

/-- A unit that closes a pair. -/
def isTrailing (u : UInt16) : Bool := 0xDC00 ≤ u.toNat && u.toNat ≤ 0xDFFF

/-- The character of a surrogate pair. -/
def pair (lead trail : UInt16) : Char :=
  Char.ofNat (0x10000 + (lead.toNat - 0xD800) * 0x400 + (trail.toNat - 0xDC00))

/-- The characters of a list of code units, with `none` for every unpaired surrogate. -/
def decode : List UInt16 → List (Option Char)
  | [] => []
  | u :: v :: rest =>
    if isLeading u then
      if isTrailing v then some (pair u v) :: decode rest else none :: decode (v :: rest)
    else if isTrailing u then none :: decode (v :: rest)
    else some (Char.ofNat u.toNat) :: decode (v :: rest)
  | [u] => if isLeading u || isTrailing u then [none] else [some (Char.ofNat u.toNat)]

/-- No surrogate stands without its partner. -/
def isWellFormed (units : List UInt16) : Bool :=
  (decode units).all Option.isSome

/-- The character shown in place of an unpaired surrogate. -/
def replacement : Char := '\uFFFD'

/-- The text of a list of code units, each unpaired surrogate replaced. -/
def lossy (units : List UInt16) : String :=
  String.ofList ((decode units).map fun c => c.getD replacement)

/-- The code units of one character. -/
def encodeChar (c : Char) : List UInt16 :=
  let n := c.toNat
  if n < 0x10000 then [UInt16.ofNat n]
  else [UInt16.ofNat (0xD800 + (n - 0x10000) / 0x400), UInt16.ofNat (0xDC00 + (n - 0x10000) % 0x400)]

/-- The code units of a text. -/
def encode (cs : List Char) : List UInt16 :=
  cs.flatMap encodeChar

end Questionnaire.Text.Utf16
