import Questionnaire.Package.Basic

/-
  Writing a capture package.

  Every slot is written, in a fixed order, with `null` for what is missing; attributes keep their
  order of declaration and maps the order of their keys. What is written reads back as the same
  package.
-/

namespace Questionnaire

namespace Json

/-- A list of texts. -/
def ofTexts (ss : List String) : Json := .array (ss.map .text)

/-- A map as an object. -/
def ofMap {α : Type} (write : α → Json) (m : SortedMap α) : Json :=
  .object (m.entries.map fun e => (e.1, write e.2))

/-- A map of texts. -/
def ofTextMap (m : SortedMap String) : Json := ofMap .text m

/-- A list of things. -/
def ofList {α : Type} (write : α → Json) (as : List α) : Json := .array (as.map write)

/-- An optional text. -/
def ofText? (s : Option String) : Json := ofOption .text s

end Json

open Json

/-- An option as JSON. -/
def EntryOption.toJson (o : EntryOption) : Json :=
  .object [("code", .text o.code), ("label", .text o.label)]

/-- Options as JSON. -/
def EntryOptions.toJson (options : EntryOptions) : Json := ofList EntryOption.toJson options

/-- A per-language overlay as JSON. -/
def LanguageOverlay.toJson {α : Type} (key : String) (write : α → Json) (o : LanguageOverlay α) :
    Json :=
  .object [("language", .text o.language), (key, ofMap write o.attributes)]

/-- A meta overlay as JSON. -/
def MetaOverlay.toJson (o : MetaOverlay) : Json :=
  .object [("language", .text o.language), ("name", ofText? o.name),
    ("description", ofText? o.description)]

/-- An overlay that is only a map of attributes as JSON. -/
def attributeOverlayToJson {α : Type} (key : String) (write : α → Json)
    (o : Option (SortedMap α)) : Json :=
  ofOption (fun m => .object [(key, ofMap write m)]) o

/-- The overlays of a unit as JSON. -/
def Overlays.toJson (o : Overlays) : Json :=
  .object [
    ("label", ofList (LanguageOverlay.toJson "attribute_labels" .text) o.labels),
    ("entry", ofList (LanguageOverlay.toJson "attribute_entries" EntryOptions.toJson) o.entries),
    ("information", ofList (LanguageOverlay.toJson "attribute_information" .text) o.information),
    ("meta", ofList MetaOverlay.toJson o.metas),
    ("cardinality", attributeOverlayToJson "attribute_cardinality" .text o.cardinality),
    ("conformance", attributeOverlayToJson "attribute_conformance" ofText? o.conformance),
    ("entry_code",
      attributeOverlayToJson "attribute_entry_codes" (ofOption ofTexts) o.entryCodes),
    ("character_encoding",
      attributeOverlayToJson "attribute_character_encoding" ofText? o.characterEncoding),
    ("format", attributeOverlayToJson "attribute_formats" ofText? o.format)]

/-- A capture base as JSON. -/
def CaptureBase.toJson (b : CaptureBase) : Json :=
  .object [("d", .text b.digest), ("type", .text b.kind), ("attributes", .object b.attributes),
    ("classification", .text b.classification),
    ("flagged_attributes", .array b.flaggedAttributes)]

/-- A capture unit as JSON. -/
def CaptureUnit.toJson (u : CaptureUnit) : Json :=
  .object [("v", .text u.version), ("d", .text u.digest),
    ("capture_base", u.captureBase.toJson), ("overlays", u.overlays.toJson)]

/-- A bundle as JSON. -/
def Bundle.toJson (b : Bundle) : Json :=
  .object [("v", .text b.version), ("bundle", b.main.toJson),
    ("dependencies", ofList CaptureUnit.toJson b.dependencies)]

/-- A localized text as JSON. -/
def LocalizedText.toJson : LocalizedText → Json
  | .plain s => .text s
  | .perLanguage texts => ofTextMap texts

/-- Nothing, a text or a list of texts as JSON. -/
def OneOrMany.toJson : OneOrMany → Json
  | .none => .null
  | .one s => .text s
  | .many ss => ofTexts ss

/-- The type of a hint as JSON. -/
def HintKind.toJson : HintKind → Json
  | .name s => .text s
  | .names ss => ofTexts ss
  | .reference kind target => .object [("type", .text kind), ("ref", ofText? target)]

/-- An interaction hint as JSON. -/
def Hint.toJson (h : Hint) : Json :=
  .object [("type", ofOption HintKind.toJson h.kind), ("orientation", ofText? h.orientation),
    ("value", ofText? h.value),
    ("reference_button_text", ofOption LocalizedText.toJson h.referenceButtonText),
    ("showing_attribute", h.showingAttribute.toJson),
    ("placeholder", ofOption LocalizedText.toJson h.placeholder)]

/-- An entry of a page as JSON. -/
def OrderEntry.toJson : OrderEntry → Json
  | .single id => .text id
  | .grouped key ids => .object [("named_section", .text key), ("attribute_order", ofTexts ids)]

/-- The definition of a page as JSON. -/
def PageDefinition.toJson (p : PageDefinition) : Json :=
  .object [("named_section", .text p.key), ("attribute_order", ofList OrderEntry.toJson p.order)]

/-- A block of hints as JSON. -/
def interactionToJson (hints : SortedMap Hint) : Json :=
  .object [("arguments", ofMap Hint.toJson hints)]

/-- A presentation as JSON. -/
def Presentation.toJson (p : Presentation) : Json :=
  .object [("d", .text p.digest), ("capture_base", .text p.captureBase),
    ("language", ofTexts p.languages), ("pages", ofList PageDefinition.toJson p.pages),
    ("page_order", ofTexts p.pageOrder), ("page_labels", ofMap ofTextMap p.pageLabels),
    ("sidebar_label", ofMap ofTextMap p.sidebarLabels),
    ("subheading", ofMap ofTextMap p.subheadings), ("title", ofTextMap p.title),
    ("interaction", ofList interactionToJson p.interactions)]

/-- A capture package as JSON. -/
def Package.toJson (p : Package) : Json :=
  .object [("d", .text p.digest), ("type", .text p.kind), ("oca_bundle", p.bundle.toJson),
    ("extensions", .object [("form", ofList Presentation.toJson p.presentations)])]

end Questionnaire
