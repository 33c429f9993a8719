import Questionnaire.Json.Decode
import Questionnaire.Package.Basic

/-
  Reading a capture package.

  Every overlay and every part of a presentation is a lenient slot: one that is broken is empty
  and leaves a notice, and the rest of the package is read as if nothing were wrong. What
  identifies things (digests, keys, languages) is read strictly.
-/

namespace Questionnaire
open Json Json.Decoder

/-! ## Options -/

/-- The slots of an option. -/
def EntryOption.slots : List (Slot EntryOption) := [
  required "code" text fun o v => { o with code := v },
  required "label" text fun o v => { o with label := v }]

/-- An option with its code and label. -/
def EntryOption.decoder : Decoder EntryOption := record EntryOption.slots ⟨"", ""⟩

/-- An option in a list: a text that is both code and label, or an option. -/
def EntryOption.listedDecoder : Decoder EntryOption := firstOf [
  fun j => (text.value? j).map fun s => ⟨s, s⟩,
  EntryOption.decoder.value?]

/-- The option of a code and its label in an object. -/
def EntryOption.ofEntry (entry : String × Json) : EntryOption :=
  ⟨entry.1, match entry.2 with
    | .text s => s
    | other => other.toText compact⟩

/-- Options as a list or as an object from codes to labels. -/
def EntryOptions.decoder : Decoder EntryOptions := firstOf [
  (list EntryOption.listedDecoder).value?,
  fun j => (jsonEntries.value? j).map (·.map EntryOption.ofEntry)]

/-! ## Overlays -/

/-- An overlay that says something about attributes in one language, under a key of its own. -/
def LanguageOverlay.decoder {α : Type} (key : String) (d : Decoder α) :
    Decoder (LanguageOverlay α) :=
  record [
    optional "language" text fun o v => { o with language := v },
    optional key (lenient (sortedMap d) ∅) fun o v => { o with attributes := v }] {}

/-- A meta overlay. -/
def MetaOverlay.decoder : Decoder MetaOverlay :=
  record [
    optional "language" text fun o v => { o with language := v },
    optional "name" (option text) fun o v => { o with name := v },
    optional "description" (option text) fun o v => { o with description := v }] {}

/-- An overlay that is only a map of attributes, under a key of its own. -/
def attributeOverlay {α : Type} (key : String) (d : Decoder α) : Decoder (SortedMap α) :=
  record [optional key (lenient (sortedMap d) ∅) fun _ v => v] ∅

/-- The overlays of a capture unit. -/
def Overlays.decoder : Decoder Overlays :=
  record [
    optional "label" (lenient (list (LanguageOverlay.decoder "attribute_labels" text)) [])
      fun o v => { o with labels := v },
    optional "entry"
      (lenient (list (LanguageOverlay.decoder "attribute_entries" EntryOptions.decoder)) [])
      fun o v => { o with entries := v },
    optional "information"
      (lenient (list (LanguageOverlay.decoder "attribute_information" text)) [])
      fun o v => { o with information := v },
    optional "meta" (lenient (list MetaOverlay.decoder) []) fun o v => { o with metas := v },
    optional "cardinality" (lenient (option (attributeOverlay "attribute_cardinality" text)) none)
      fun o v => { o with cardinality := v },
    optional "conformance"
      (lenient (option (attributeOverlay "attribute_conformance" (option text))) none)
      fun o v => { o with conformance := v },
    optional "entry_code"
      (lenient (option (attributeOverlay "attribute_entry_codes" (option (list text)))) none)
      fun o v => { o with entryCodes := v },
    optional "character_encoding"
      (lenient (option (attributeOverlay "attribute_character_encoding" (option text))) none)
      fun o v => { o with characterEncoding := v },
    optional "format" (lenient (option (attributeOverlay "attribute_formats" (option text))) none)
      fun o v => { o with format := v }] {}

/-! ## Capture units -/

/-- A capture base. -/
def CaptureBase.decoder : Decoder CaptureBase :=
  record [
    optional "d" text fun b v => { b with digest := v },
    optional "type" text fun b v => { b with kind := v },
    optional "attributes" (lenient jsonEntries []) fun b v => { b with attributes := v },
    optional "classification" text fun b v => { b with classification := v },
    optional "flagged_attributes" (lenient (list json) [])
      fun b v => { b with flaggedAttributes := v }] {}

/-- A capture unit. -/
def CaptureUnit.decoder : Decoder CaptureUnit :=
  record [
    optional "v" text fun u v => { u with version := v },
    optional "d" text fun u v => { u with digest := v },
    optional "capture_base" CaptureBase.decoder fun u v => { u with captureBase := v },
    optional "overlays" (lenient Overlays.decoder {}) fun u v => { u with overlays := v }] {}

/-- A bundle. -/
def Bundle.decoder : Decoder Bundle :=
  record [
    optional "v" text fun b v => { b with version := v },
    optional "bundle" CaptureUnit.decoder fun b v => { b with main := v },
    optional "dependencies" (list CaptureUnit.decoder) fun b v => { b with dependencies := v }] {}

/-! ## Presentations -/

/-- A localized text. -/
def LocalizedText.decoder : Decoder LocalizedText := firstOf [
  fun j => (text.value? j).map .plain,
  fun j => ((sortedMap text).value? j).map .perLanguage]

/-- Nothing, a text or a list of texts. -/
def OneOrMany.decoder : Decoder OneOrMany := firstOf [
  fun j => match j with
    | .null => some OneOrMany.none
    | _ => Option.none,
  fun j => (text.value? j).map .one,
  fun j => ((list text).value? j).map .many]

/-- A reference as the type of a hint. -/
def HintKind.referenceDecoder : Decoder (String × Option String) :=
  record [
    required "type" text fun k v => (v, k.2),
    optional "ref" (option text) fun k v => (k.1, v)] ("", none)

/-- The type of a hint. -/
def HintKind.decoder : Decoder HintKind := firstOf [
  fun j => (text.value? j).map .name,
  fun j => ((list text).value? j).map .names,
  objectOnly fun j => (HintKind.referenceDecoder.value? j).map fun k => .reference k.1 k.2]

/-- An interaction hint. -/
def Hint.decoder : Decoder Hint :=
  record [
    optional "type" (lenient (option HintKind.decoder) none) fun h v => { h with kind := v },
    optional "orientation" (lenient (option text) none) fun h v => { h with orientation := v },
    optional "value" scalarText fun h v => { h with value := v },
    optional "reference_button_text" (lenient (option LocalizedText.decoder) none)
      fun h v => { h with referenceButtonText := v },
    optional "showing_attribute" (lenient OneOrMany.decoder .none)
      fun h v => { h with showingAttribute := v },
    optional "placeholder" (lenient (option LocalizedText.decoder) none)
      fun h v => { h with placeholder := v }] {}

/-- A block of hints. -/
def interactionDecoder : Decoder (SortedMap Hint) :=
  record [optional "arguments" (lenient (sortedMap Hint.decoder) ∅) fun _ v => v] ∅

/-- A section in the order of a page. -/
def OrderEntry.sectionDecoder : Decoder (String × List String) :=
  record [
    required "named_section" text fun s v => (v, s.2),
    optional "attribute_order" (list text) fun s v => (s.1, v)] ("", [])

/-- An entry in the order of a page. -/
def OrderEntry.decoder : Decoder OrderEntry := firstOf [
  fun j => (text.value? j).map .single,
  objectOnly fun j => (OrderEntry.sectionDecoder.value? j).map fun s => .grouped s.1 s.2]

/-- The definition of a page. -/
def PageDefinition.decoder : Decoder PageDefinition :=
  record [
    required "named_section" text fun p v => { p with key := v },
    optional "attribute_order" (list OrderEntry.decoder) fun p v => { p with order := v }] {}

/-- Texts by language and key. -/
def keyedTexts : Decoder (LanguageMap (SortedMap String)) :=
  lenient (sortedMap (sortedMap text)) ∅

/-- A presentation. -/
def Presentation.decoder : Decoder Presentation :=
  record [
    optional "d" text fun p v => { p with digest := v },
    optional "capture_base" text fun p v => { p with captureBase := v },
    optional "language" (lenient (list text) []) fun p v => { p with languages := v },
    optional "pages" (lenient (list PageDefinition.decoder) []) fun p v => { p with pages := v },
    optional "page_order" (lenient (list text) []) fun p v => { p with pageOrder := v },
    optional "page_labels" keyedTexts fun p v => { p with pageLabels := v },
    optional "sidebar_label" keyedTexts fun p v => { p with sidebarLabels := v },
    optional "subheading" keyedTexts fun p v => { p with subheadings := v },
    optional "title" (lenient (sortedMap text) ∅) fun p v => { p with title := v },
    optional "interaction" (lenient (list interactionDecoder) [])
      fun p v => { p with interactions := v }] {}

/-- The presentations among the extensions of a package. -/
def extensionsDecoder : Decoder (List Presentation) :=
  record [optional "form" (lenient (list Presentation.decoder) []) fun _ v => v] []

/-- A capture package. -/
def Package.decoder : Decoder Package :=
  record [
    optional "d" text fun p v => { p with digest := v },
    optional "type" text fun p v => { p with kind := v },
    optional "oca_bundle" Bundle.decoder fun p v => { p with bundle := v },
    optional "extensions" (lenient extensionsDecoder []) fun p v => { p with presentations := v }]
    {}

end Questionnaire
