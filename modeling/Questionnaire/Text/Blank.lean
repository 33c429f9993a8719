/-
  Blank characters and the small text operations that ignore them.

  A character is blank when Unicode gives it the property White_Space. Texts are trimmed of
  blanks at both ends wherever a package may carry stray ones: reference sentinels, type names,
  cardinalities, encodings. Letter case is ignored for ASCII letters only.
-/

namespace Questionnaire.Text

/-- The White_Space ranges of Unicode, both ends included. -/
def blankRanges : List (Nat × Nat) :=
  [(0x09, 0x0D), (0x20, 0x20), (0x85, 0x85), (0xA0, 0xA0), (0x1680, 0x1680), (0x2000, 0x200A),
   (0x2028, 0x2029), (0x202F, 0x202F), (0x205F, 0x205F), (0x3000, 0x3000)]

/-- A character with the property White_Space. -/
def isBlank (c : Char) : Bool :=
  blankRanges.any fun r => r.1 ≤ c.toNat && c.toNat ≤ r.2

/-! ## Trimming -/

/-- The characters between the first and the last one that is not blank. -/
def trimChars (cs : List Char) : List Char :=
  ((cs.dropWhile isBlank).reverse.dropWhile isBlank).reverse

/-- The text without the blanks at its ends. -/
def trim (s : String) : String :=
  String.ofList (trimChars s.toList)

@[simp] theorem toList_trim (s : String) : (trim s).toList = trimChars s.toList := by
  simp [trim]

/-! ## ASCII letter case -/

/-- The text with its ASCII capitals made small. -/
def lowerAscii (s : String) : String :=
  String.ofList (s.toList.map Char.toLower)

/-- Equality up to the case of ASCII letters. -/
def sameIgnoringCase (a b : String) : Bool :=
  lowerAscii a == lowerAscii b

/-! ## Splitting and joining -/

/-- The pieces of a text between the occurrences of a separator; never empty. -/
def splitChars (separator : Char) : List Char → List (List Char)
  | [] => [[]]
  | c :: cs =>
    if c = separator then [] :: splitChars separator cs
    else match splitChars separator cs with
      | [] => [[c]]
      | piece :: pieces => (c :: piece) :: pieces

/-- What remains of a text after a leading part. -/
def afterLeading (lead s : List Char) : Option (List Char) :=
  match lead, s with
  | [], s => some s
  | _ :: _, [] => none
  | l :: lead, c :: s => if l = c then afterLeading lead s else none

theorem afterLeading_eq_some_iff {lead s rest : List Char} :
    afterLeading lead s = some rest ↔ s = lead ++ rest := by
  induction lead generalizing s with
  | nil => simp [afterLeading, eq_comm]
  | cons l lead ih =>
    cases s with
    | nil => simp [afterLeading]
    | cons c s =>
      by_cases h : l = c
      · simp [afterLeading, h, ih]
      · simp [afterLeading, h, Ne.symm h]

end Questionnaire.Text
