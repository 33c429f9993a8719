import Questionnaire.Json.Decode
import Questionnaire.Package.Encode
import Questionnaire.Text.Utf16

/-
  Answers: the values entered for fields.
-/

namespace Questionnaire
open Json.Decoder

/-- A value entered for one field. -/
inductive Answer
  | text (s : String)
  /-- The choices of a field that takes several. -/
  | list (items : List String)
  /-- UTF-16 code units as they were entered, possibly with unpaired surrogates. -/
  | wide (units : List UInt16)
deriving DecidableEq, Repr

namespace Answer

/-- Whether nothing was entered. -/
def isEmpty : Answer → Bool
  | .text s => s = ""
  | .list items => items.isEmpty
  | .wide units => units.isEmpty

/-- The single values of an answer. -/
def items : Answer → List String
  | .text s => [s]
  | .list items => items
  | .wide units => [Text.Utf16.lossy units]

/-- The answer as shown, several values separated by commas. -/
def display (a : Answer) : String := String.intercalate ", " a.items

/-- A code unit. -/
def unitDecoder : Json.Decoder UInt16 := fun origin r => do
  return UInt16.ofNat (← naturalBelow UInt16.size origin r)

/-- An answer: a text, a list of texts or a list of code units, whichever fits first. -/
def decoder : Json.Decoder Answer := firstOf [
  fun j => (Json.Decoder.text.value? j).map .text,
  fun j => ((Json.Decoder.list Json.Decoder.text).value? j).map .list,
  fun j => ((Json.Decoder.list unitDecoder).value? j).map .wide]

/-- An answer as JSON. -/
def toJson : Answer → Json
  | .text s => .text s
  | .list items => Json.ofTexts items
  | .wide units => Json.ofList (fun u => Json.ofNat u.toNat) units

end Answer

/-- Answers by field. -/
abbrev Values := SortedMap Answer

/-- Answers by field as JSON. -/
def Values.toJson (v : Values) : Json := Json.ofMap Answer.toJson v

end Questionnaire
