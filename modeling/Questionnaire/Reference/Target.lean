import Questionnaire.Json.Basic
import Questionnaire.Text.Blank

/-
  References between capture units.

  An attribute refers to a unit when its declared type is `refs:` followed by the unit's
  identifier, or that inside `Array[` and `]`. Blanks around the whole and around the identifier
  do not count.
-/

namespace Questionnaire

/-- The marks of a reference. -/
def referenceMark : List Char := "refs:".toList

/-- The mark of a reference to many. -/
def arrayMark : List Char := "Array[".toList

/-- What stands between `Array[` and a closing bracket at the end, if the text has that form. -/
def insideArray? (cs : List Char) : Option (List Char) :=
  (Text.afterLeading arrayMark cs).bind fun rest =>
    if rest.getLast? = some ']' then some rest.dropLast else none

/-- The identifier that a reference names, as characters. -/
def targetChars? (cs : List Char) : Option (List Char) :=
  let cs := Text.trimChars cs
  ((Text.afterLeading referenceMark ((insideArray? cs).getD cs)).map Text.trimChars).filter
    (!·.isEmpty)

/-- The identifier that a declared type refers to. -/
def referenceTarget? : Json → Option String
  | .text s => (targetChars? s.toList).map String.ofList
  | _ => none

end Questionnaire
