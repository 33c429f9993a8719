import Questionnaire.Json.Decode
import Questionnaire.Package.Decode
import Questionnaire.Package.Encode
import Questionnaire.Field.Basic

/-
  Fields as JSON.

  Texts, options and rules that are empty or missing are left out when a field is written, and a
  slot that is left out is empty when it is read, so every field reads back as itself.
-/

namespace Questionnaire
open Json Json.Decoder

/-! ## Reading -/

/-- A kind of input by its name. -/
def FieldKind.decoder : Decoder FieldKind := oneOf (FieldKind.all.map fun k => (k.name, k))

/-- An orientation by its name. -/
def Orientation.decoder : Decoder Orientation :=
  oneOf [("vertical", .vertical), ("horizontal", .horizontal)]

/-- A conformance by its letter. -/
def Conformance.decoder : Decoder Conformance := oneOf [("M", .mandatory), ("O", .voluntary)]

/-- A number of 64 bits. -/
def word64 : Decoder UInt64 := fun origin r => do
  return UInt64.ofNat (← naturalBelow UInt64.size origin r)

/-- A range. -/
def Cardinality.decoder : Decoder Cardinality :=
  record [
    required "min" word64 fun c v => { c with min := v },
    required "max" word64 fun c v => { c with max := v }] {}

/-- The rules of a field. -/
def AnswerRules.decoder : Decoder AnswerRules :=
  record [
    required "conformance" Conformance.decoder fun r v => { r with conformance := v },
    optional "format" (option text) fun r v => { r with format := v },
    optional "entry_codes" (list text) fun r v => { r with entryCodes := v },
    optional "character_encoding" (option text) fun r v => { r with characterEncoding := v },
    optional "cardinality" (option Cardinality.decoder) fun r v => { r with cardinality := v }] {}

/-- A field. -/
def Field.decoder : Decoder Field :=
  record [
    required "id" text fun f v => { f with id := v },
    optional "labels" (sortedMap text) fun f v => { f with labels := v },
    optional "options" (sortedMap EntryOptions.decoder) fun f v => { f with options := v },
    optional "information" (sortedMap text) fun f v => { f with information := v },
    required "type" FieldKind.decoder fun f v => { f with kind := v },
    optional "orientation" (option Orientation.decoder) fun f v => { f with orientation := v },
    optional "value" (option text) fun f v => { f with value := v },
    optional "ref" (option text) fun f v => { f with target := v },
    optional "reference_button_text" (option LocalizedText.decoder)
      fun f v => { f with referenceButtonText := v },
    optional "showing_attribute" (list text) fun f v => { f with showingAttribute := v },
    optional "placeholder" (option LocalizedText.decoder) fun f v => { f with placeholder := v },
    optional "validation" AnswerRules.decoder fun f v => { f with rules := v }] {}

/-! ## Writing -/

namespace Json

/-- The entry of an optional value, left out when there is none. -/
def entry? {α : Type} (key : String) (write : α → Json) (a : Option α) : List (String × Json) :=
  match a with
  | none => []
  | some a => [(key, write a)]

/-- The entry of a list, left out when it is empty. -/
def listEntry {α : Type} (key : String) (write : α → Json) (as : List α) : List (String × Json) :=
  if as.isEmpty then [] else [(key, ofList write as)]

/-- The entry of a map, left out when it is empty. -/
def mapEntry {α : Type} (key : String) (write : α → Json) (m : SortedMap α) :
    List (String × Json) :=
  if m.isEmpty then [] else [(key, ofMap write m)]

end Json

/-- A kind of input as JSON. -/
def FieldKind.toJson (k : FieldKind) : Json := .text k.name

/-- An orientation as JSON. -/
def Orientation.toJson : Orientation → Json
  | .vertical => .text "vertical"
  | .horizontal => .text "horizontal"

/-- A conformance as JSON. -/
def Conformance.toJson : Conformance → Json
  | .mandatory => .text "M"
  | .voluntary => .text "O"

/-- A range as JSON. -/
def Cardinality.toJson (c : Cardinality) : Json :=
  .object [("min", ofNat c.min.toNat), ("max", ofNat c.max.toNat)]

/-- The rules of a field as JSON. -/
def AnswerRules.toJson (r : AnswerRules) : Json :=
  .object (("conformance", r.conformance.toJson) ::
    entry? "format" .text r.format ++ listEntry "entry_codes" .text r.entryCodes ++
    entry? "character_encoding" .text r.characterEncoding ++
    entry? "cardinality" Cardinality.toJson r.cardinality)

/-- A field as JSON. -/
def Field.toJson (f : Field) : Json :=
  .object ([("id", .text f.id), ("labels", ofTextMap f.labels)] ++
    mapEntry "options" EntryOptions.toJson f.options ++
    mapEntry "information" .text f.information ++
    [("type", f.kind.toJson)] ++
    entry? "orientation" Orientation.toJson f.orientation ++
    entry? "value" .text f.value ++
    entry? "ref" .text f.target ++
    entry? "reference_button_text" LocalizedText.toJson f.referenceButtonText ++
    listEntry "showing_attribute" .text f.showingAttribute ++
    entry? "placeholder" LocalizedText.toJson f.placeholder ++
    [("validation", f.rules.toJson)])

end Questionnaire
