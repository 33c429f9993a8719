import Questionnaire.Json.Basic
import Questionnaire.SortedMap

/-
  The capture package: what is to be asked, and how it is laid out.

  A package holds one main capture unit, the units it depends on, and presentations. A capture
  unit declares attributes in its capture base and describes them in overlays. A presentation
  groups the attributes of one unit into pages and carries interaction hints for them. Languages
  are named by codes such as `eng`; where a text is missing in a language, English stands in.
-/

namespace Questionnaire

/-- Something given per language, under the language's code. -/
abbrev LanguageMap (α : Type) := SortedMap α

/-- The language that stands in for others. -/
def defaultLanguage : String := "eng"

/-- The text in a language, else in English; an empty text counts as missing. -/
def LanguageMap.localized? (texts : LanguageMap String) (language : String) : Option String :=
  ((texts.get? language).filter (· ≠ "")).or ((texts.get? defaultLanguage).filter (· ≠ ""))

/-! ## Options of an attribute -/

/-- One option: the code that is stored and the label that is shown. -/
structure EntryOption where
  code : String
  label : String
deriving DecidableEq, Repr

/-- The options of an attribute in one language, in order. -/
abbrev EntryOptions := List EntryOption

/-- Whether a value is the code or the label of an option. -/
def EntryOptions.offers (options : EntryOptions) (value : String) : Bool :=
  options.any fun o => o.code = value || o.label = value

/-- The label of the first option with a code. -/
def EntryOptions.labelOf? (options : EntryOptions) (code : String) : Option String :=
  (options.find? (·.code = code)).map (·.label)

/-! ## Overlays -/

/-- Something said about attributes in one language. -/
structure LanguageOverlay (α : Type) where
  language : String := ""
  attributes : SortedMap α := ∅

/-- Name and description of a capture unit in one language. -/
structure MetaOverlay where
  language : String := ""
  name : Option String := none
  description : Option String := none
deriving DecidableEq

/-- What is said about a capture unit and its attributes. -/
structure Overlays where
  labels : List (LanguageOverlay String) := []
  entries : List (LanguageOverlay EntryOptions) := []
  information : List (LanguageOverlay String) := []
  metas : List MetaOverlay := []
  cardinality : Option (SortedMap String) := none
  conformance : Option (SortedMap (Option String)) := none
  entryCodes : Option (SortedMap (Option (List String))) := none
  characterEncoding : Option (SortedMap (Option String)) := none
  format : Option (SortedMap (Option String)) := none

/-! ## Capture units -/

/-- The attributes of a capture unit, each with its declared type, in order of declaration. -/
structure CaptureBase where
  digest : String := ""
  kind : String := ""
  attributes : List (String × Json) := []
  classification : String := ""
  flaggedAttributes : List Json := []

/-- A capture unit. Its capture base's digest identifies it; its own digest is an alias. -/
structure CaptureUnit where
  version : String := ""
  digest : String := ""
  captureBase : CaptureBase := {}
  overlays : Overlays := {}

/-- The identifier of a unit: the digest of its capture base. -/
def CaptureUnit.id (u : CaptureUnit) : String := u.captureBase.digest

/-- The main unit and the units that references may reach. -/
structure Bundle where
  version : String := ""
  main : CaptureUnit := {}
  dependencies : List CaptureUnit := []

/-! ## Presentations -/

/-- A text that is the same in all languages or given per language. -/
inductive LocalizedText
  | plain (s : String)
  | perLanguage (texts : LanguageMap String)
deriving DecidableEq

/-- The text in a language. -/
def LocalizedText.get? : LocalizedText → String → Option String
  | .plain s, _ => some s
  | .perLanguage texts, language => texts.localized? language

/-- Nothing, one text or a list of texts. -/
inductive OneOrMany
  | none
  | one (s : String)
  | many (ss : List String)
deriving DecidableEq, Repr

/-- The texts in order. -/
def OneOrMany.toList : OneOrMany → List String
  | .none => []
  | .one s => [s]
  | .many ss => ss

/-- The type that a hint declares: a name, a list whose first name counts, or a reference. -/
inductive HintKind
  | name (s : String)
  | names (ss : List String)
  | reference (kind : String) (target : Option String)
deriving DecidableEq, Repr

/-- The declared name. -/
def HintKind.name? : HintKind → Option String
  | .name s => some s
  | .names ss => ss.head?
  | .reference kind _ => some kind

/-- How one attribute is to be presented. -/
structure Hint where
  kind : Option HintKind := none
  orientation : Option String := none
  value : Option String := none
  referenceButtonText : Option LocalizedText := none
  showingAttribute : OneOrMany := .none
  placeholder : Option LocalizedText := none
deriving DecidableEq

/-- An entry of a page: an attribute, or a section that lists attributes. -/
inductive OrderEntry
  | single (id : String)
  | grouped (key : String) (ids : List String)
deriving DecidableEq, Repr

/-- One page of a presentation. -/
structure PageDefinition where
  key : String := ""
  order : List OrderEntry := []
deriving DecidableEq, Repr

/-- How one capture unit is laid out on pages. -/
structure Presentation where
  digest : String := ""
  captureBase : String := ""
  languages : List String := []
  pages : List PageDefinition := []
  pageOrder : List String := []
  /-- For each language the texts of pages and sections by key. -/
  pageLabels : LanguageMap (SortedMap String) := ∅
  sidebarLabels : LanguageMap (SortedMap String) := ∅
  subheadings : LanguageMap (SortedMap String) := ∅
  title : LanguageMap String := ∅
  interactions : List (SortedMap Hint) := []

/-- The first definition of a page. -/
def Presentation.page? (p : Presentation) (key : String) : Option PageDefinition :=
  p.pages.find? (·.key = key)

/-- The hint for an attribute in the first interaction block that has one. -/
def Presentation.hint? (p : Presentation) (id : String) : Option Hint :=
  p.interactions.findSome? (·.get? id)

/-- A capture package. -/
structure Package where
  digest : String := ""
  kind : String := ""
  bundle : Bundle := {}
  presentations : List Presentation := []

/-- The identifier of the main capture unit. -/
def Package.mainId (p : Package) : String := p.bundle.main.id

end Questionnaire
