import Questionnaire.Pattern.CaseFolding
import Questionnaire.Pattern.Categories
import Questionnaire.Pattern.Scripts

/-
  The sets of characters that patterns speak of.

  A set is the predicate of its members. It also carries a measure of its spread, about the
  number of its ranges beyond ASCII, from which the size of a pattern is estimated.
-/

namespace Questionnaire.Pattern

/-- A set of characters. -/
structure CharSet where
  holds : Char → Bool
  spread : Nat

namespace CharSet

/-- The empty set. -/
def empty : CharSet := ⟨fun _ => false, 0⟩

/-- The characters from one to another. -/
def range (low high : Char) : CharSet :=
  ⟨fun c => low.toNat ≤ c.toNat && c.toNat ≤ high.toNat, if high.toNat < 0x80 then 0 else 1⟩

/-- A single character. -/
def single (c : Char) : CharSet := range c c

/-- The characters of a table. -/
def ofRanges (r : Ranges) : CharSet := ⟨fun c => r.holds c.toNat, r.size⟩

/-- The characters in one set or the other. -/
def union (a b : CharSet) : CharSet := ⟨fun c => a.holds c || b.holds c, a.spread + b.spread⟩

/-- The characters in both sets. -/
def inter (a b : CharSet) : CharSet := ⟨fun c => a.holds c && b.holds c, a.spread + b.spread⟩

/-- The characters in the first set only. -/
def diff (a b : CharSet) : CharSet := ⟨fun c => a.holds c && !b.holds c, a.spread + b.spread⟩

/-- The characters in exactly one of two sets. -/
def symmDiff (a b : CharSet) : CharSet := ⟨fun c => a.holds c != b.holds c, a.spread + b.spread⟩

/-- The characters outside a set. -/
def complement (a : CharSet) : CharSet := ⟨fun c => !a.holds c, a.spread + 4⟩

/-- The complement if asked for. -/
def negateIf (negated : Bool) (a : CharSet) : CharSet := if negated then a.complement else a

/-- The union of a list of sets. -/
def unions (sets : List CharSet) : CharSet := sets.foldl union empty

/-- The characters that are the same up to case as a member. -/
def folded (a : CharSet) : CharSet := ⟨fun c => (caseVariants c).any a.holds, 2 * a.spread⟩

/-- The characters that are the same up to the case of ASCII letters as a member. -/
def asciiFolded (a : CharSet) : CharSet :=
  ⟨fun c => (asciiCaseVariants c).any a.holds, a.spread⟩

/-- All characters. -/
def all : CharSet := complement empty

/-- Whether no member has a code point from 128 to 255, so that the set can be told byte by
byte. -/
def isAscii (a : CharSet) : Bool :=
  (List.range 128).all fun n => !a.holds (Char.ofNat (n + 128))

/-! ## Categories, scripts and other properties -/

/-- The members of the categories with the given short names. -/
def ofCategories (names : List String) : CharSet :=
  unions ((categories.filter fun k => k.names.any names.contains).map (ofRanges ·.ranges))

/-- The decimal digits. -/
def digits : CharSet := ofCategories ["nd"]

/-- The blank characters. -/
def blanks : CharSet := ⟨Text.isBlank, Text.blankRanges.length⟩

/-- The characters of words: letters, marks, digits, connectors and joiners. -/
def wordChars : CharSet :=
  unions [ofRanges alphabeticRanges, ofCategories ["mn", "mc", "me"], digits,
    ofCategories ["pc"], range '\u200c' '\u200d']

/-- The ASCII digits. -/
def asciiDigits : CharSet := range '0' '9'

/-- The ASCII letters. -/
def asciiLetters : CharSet := union (range 'A' 'Z') (range 'a' 'z')

/-- The ASCII blanks. -/
def asciiBlanks : CharSet := union (range '\t' '\r') (single ' ')

/-- The ASCII characters of words. -/
def asciiWordChars : CharSet := unions [asciiLetters, asciiDigits, single '_']

/-- The ASCII classes that brackets know by name. -/
def asciiClasses : List (String × CharSet) := [
  ("alnum", union asciiLetters asciiDigits),
  ("alpha", asciiLetters),
  ("ascii", range '\x00' '\x7f'),
  ("blank", union (single '\t') (single ' ')),
  ("cntrl", union (range '\x00' '\x1f') (single '\x7f')),
  ("digit", asciiDigits),
  ("graph", range '!' '~'),
  ("lower", range 'a' 'z'),
  ("print", range ' ' '~'),
  ("punct", unions [range '!' '/', range ':' '@', range '[' '\x60', range '\x7b' '~']),
  ("space", asciiBlanks),
  ("upper", range 'A' 'Z'),
  ("word", asciiWordChars),
  ("xdigit", unions [asciiDigits, range 'A' 'F', range 'a' 'f'])]

/-- The code points of no category. -/
def unassigned : CharSet :=
  complement (unions (categories.map (ofRanges ·.ranges)))

/-- The characters of a category or a group of categories. -/
def ofCategory? (name : String) : Option CharSet :=
  if name = "any" then some all
  else if name = "ascii" then some (range '\x00' '\x7f')
  else if name = "assigned" then some unassigned.complement
  else if name = "cn" || name = "unassigned" then some unassigned
  else if name = "c" || name = "other" then
    some (union unassigned (ofCategories ["cc", "cf", "cs", "co"]))
  else
    match categories.find? (·.names.contains name) with
    | some k => some (ofRanges k.ranges)
    | none => (categoryGroups.find? (·.1.contains name)).map fun g => ofCategories g.2

/-- The characters of a script. -/
def ofScript? (name : String) : Option CharSet :=
  (scripts.find? (·.names.contains name)).map (ofRanges ·.ranges)

/-- The capitals. -/
def uppercase : CharSet := union (ofCategories ["lu"]) (ofRanges otherUppercaseRanges)

/-- The small letters, and what counts as such. -/
def lowercase : CharSet := union (ofCategories ["ll"]) (ofRanges otherLowercaseRanges)

/-- The properties that are said of each character by itself, with their names. -/
def binaryProperties : List (List String × CharSet) := [
  (["alphabetic", "alpha"], ofRanges alphabeticRanges),
  (["whitespace", "space", "wspace"], blanks),
  (["uppercase", "upper"], uppercase),
  (["lowercase", "lower"], lowercase)]

/-- The characters of a property that is said of each character by itself. -/
def ofBinaryProperty? (name : String) : Option CharSet :=
  (binaryProperties.find? (·.1.contains name)).map (·.2)

/-- The characters of a property by one name: a property, a category or a script. -/
def ofName? (name : String) : Option CharSet :=
  ((ofBinaryProperty? name).or (ofCategory? name)).or (ofScript? name)

/-- The characters for which a property has a value. -/
def ofValue? (property value : String) : Option CharSet :=
  if ["generalcategory", "gc"].contains property then ofCategory? value
  else if ["script", "sc", "scriptextensions", "scx"].contains property then ofScript? value
  else none

/-- A name without blanks, dashes, underscores, capitals and a leading `is`. -/
def plainName (name : List Char) : String :=
  let lead := name.take 2
  let starts := lead.map Char.toLower = ['i', 's']
  let kept := ((if starts then name.drop 2 else name).filter fun c =>
    c ≠ ' ' && c ≠ '_' && c ≠ '-' && c.toNat < 0x80).map Char.toLower
  String.ofList (if starts && kept = ['c'] then ['i', 's', 'c'] else kept)

end CharSet
end Questionnaire.Pattern
