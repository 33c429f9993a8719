import Questionnaire.Field.Basic

/-
  The overlays of one capture unit, collected per language and attribute.

  Of several overlays in one language the last one counts. Null conformances are left out, null
  entry codes are empty lists, and empty encodings and formats count as missing.
-/

namespace Questionnaire

/-- What the overlays of a unit say about its attributes. -/
structure OverlayProjection where
  labels : LanguageMap (SortedMap String) := ∅
  options : LanguageMap (SortedMap EntryOptions) := ∅
  information : LanguageMap (SortedMap String) := ∅
  cardinality : SortedMap Cardinality := ∅
  conformance : SortedMap Conformance := ∅
  entryCodes : SortedMap (List String) := ∅
  characterEncoding : SortedMap String := ∅
  format : SortedMap String := ∅
deriving DecidableEq

/-- Overlays by language; a later one replaces an earlier one. -/
def byLanguage {α : Type} (overlays : List (LanguageOverlay α)) : LanguageMap (SortedMap α) :=
  SortedMap.ofList (overlays.map fun o => (o.language, o.attributes))

/-- The texts of a map that are there and not empty. -/
def nonEmptyTexts (m : SortedMap (Option String)) : SortedMap String :=
  m.filterMap fun _ v => v.filter (· ≠ "")

/-- Collects the overlays of a unit. -/
def OverlayProjection.ofUnit (u : CaptureUnit) : OverlayProjection where
  labels := byLanguage u.overlays.labels
  options := byLanguage u.overlays.entries
  information := byLanguage u.overlays.information
  cardinality := (u.overlays.cardinality.getD ∅).map Cardinality.ofText
  conformance := (u.overlays.conformance.getD ∅).filterMap fun _ v => v.map Conformance.ofText
  entryCodes := (u.overlays.entryCodes.getD ∅).map fun v => v.getD []
  characterEncoding := nonEmptyTexts (u.overlays.characterEncoding.getD ∅)
  format := nonEmptyTexts (u.overlays.format.getD ∅)

/-! ## Names of a step -/

/-- The name of a step whose unit has none. -/
def unnamedStep : String := "Unnamed Step"

/-- The names and descriptions of a step. -/
structure StepTexts where
  names : LanguageMap String := ∅
  descriptions : LanguageMap String := ∅
deriving DecidableEq

/-- The names and descriptions that the meta overlays of a unit give. -/
def StepTexts.ofUnit (u : CaptureUnit) : StepTexts :=
  let names := SortedMap.ofList (u.overlays.metas.map fun m =>
    (m.language, (m.name.filter (· ≠ "")).getD unnamedStep))
  { names := if names.isEmpty then names.insert defaultLanguage unnamedStep else names
    descriptions := SortedMap.ofList (u.overlays.metas.map fun m =>
      (m.language, m.description.getD "")) }

end Questionnaire
