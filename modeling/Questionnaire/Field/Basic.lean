import Questionnaire.Package.Basic
import Questionnaire.Text.Numeral

/-
  Fields: the inputs of a compiled form.

  A field is self-contained: it carries its texts in all languages, its options, the kind of
  input it is shown as and the rules that its answers obey.
-/

namespace Questionnaire

/-! ## Kinds of input -/

/-- The kind of input that a field is shown as. -/
inductive FieldKind
  | textarea
  | text
  | dateTime
  | radio
  | select
  | dropdown
  | checkbox
  | boolean
  | enumeration
  | reference
deriving DecidableEq, Repr

namespace FieldKind

/-- The name of a kind. -/
def name : FieldKind → String
  | .textarea => "textarea"
  | .text => "text"
  | .dateTime => "DateTime"
  | .radio => "radio"
  | .select => "select"
  | .dropdown => "dropdown"
  | .checkbox => "checkbox"
  | .boolean => "boolean"
  | .enumeration => "enum"
  | .reference => "reference"

/-- All kinds. -/
def all : List FieldKind :=
  [.textarea, .text, .dateTime, .radio, .select, .dropdown, .checkbox, .boolean, .enumeration,
    .reference]

/-- The names under which hints ask for a kind, in small letters. -/
def hintNames : List (String × FieldKind) := [
  ("textarea", .textarea), ("text", .text), ("string", .text), ("datetime", .dateTime),
  ("date", .dateTime), ("radio", .radio), ("select", .select), ("dropdown", .dropdown),
  ("checkbox", .checkbox), ("boolean", .boolean), ("bool", .boolean), ("enum", .enumeration),
  ("reference", .reference)]

/-- The kind that a hint asks for; blanks around the name and letter case do not count. -/
def ofHint? (name : String) : Option FieldKind :=
  hintNames.lookup (Text.lowerAscii (Text.trim name))

/-- Whether the field picks from the attribute's options. -/
def isChoice : FieldKind → Bool
  | .radio | .select | .dropdown | .checkbox | .enumeration => true
  | _ => false

end FieldKind

/-! ## Orientation, conformance, cardinality -/

/-- The direction in which options are laid out. -/
inductive Orientation
  | vertical
  | horizontal
deriving DecidableEq, Repr

/-- The orientation that a hint asks for. -/
def Orientation.ofHint? (name : String) : Option Orientation :=
  [("vertical", Orientation.vertical), ("horizontal", .horizontal)].lookup
    (Text.lowerAscii (Text.trim name))

/-- Whether an answer must be given. -/
inductive Conformance
  | mandatory
  | voluntary
deriving DecidableEq, Repr

/-- Only the letter M, in either case, makes an attribute mandatory. -/
def Conformance.ofText (s : String) : Conformance :=
  if Text.sameIgnoringCase (Text.trim s) "M" then .mandatory else .voluntary

/-- The maximum of a range that has none. -/
def unbounded : UInt64 := 999999999999999999

/-- How many values an attribute may have. -/
structure Cardinality where
  min : UInt64 := 0
  max : UInt64 := unbounded
deriving DecidableEq, Repr

namespace Cardinality

/-- The range written as `min-max`. A part that is missing or no number leaves its side open; a
second dash ends the range. -/
def ofText (s : String) : Cardinality :=
  match Text.splitChars '-' s.toList with
  | [] => {}
  | [low] => { min := (Text.word64? (Text.trimChars low)).getD 0 }
  | low :: high :: _ =>
    { min := (Text.word64? (Text.trimChars low)).getD 0
      max := (Text.word64? (Text.trimChars high)).getD unbounded }

/-- Whether the range has a maximum. -/
def isBounded (c : Cardinality) : Bool := c.max != unbounded

end Cardinality

/-! ## Fields -/

/-- The rules that the answers of a field obey. -/
structure AnswerRules where
  conformance : Conformance := .voluntary
  format : Option String := none
  entryCodes : List String := []
  characterEncoding : Option String := none
  cardinality : Option Cardinality := none
deriving DecidableEq

/-- One input of a form. -/
structure Field where
  id : String := ""
  labels : LanguageMap String := ∅
  options : LanguageMap EntryOptions := ∅
  information : LanguageMap String := ∅
  kind : FieldKind := .textarea
  orientation : Option Orientation := none
  value : Option String := none
  /-- The step that a reference field leads to. -/
  target : Option String := none
  referenceButtonText : Option LocalizedText := none
  showingAttribute : List String := []
  placeholder : Option LocalizedText := none
  rules : AnswerRules := {}
deriving DecidableEq

namespace Field

/-- The label in a language, else in English. -/
def label? (f : Field) (language : String) : Option String := f.labels.localized? language

/-- The label, or the field's id when it has none. -/
def displayLabel (f : Field) (language : String) : String := (f.label? language).getD f.id

/-- The help text in a language, else in English. -/
def information? (f : Field) (language : String) : Option String :=
  f.information.localized? language

/-- The options in a language, else in English; no options count as missing. -/
def options? (f : Field) (language : String) : Option EntryOptions :=
  ((f.options.get? language).filter (!·.isEmpty)).or (f.options.get? defaultLanguage)

/-- The step that the field leads to, if it is a reference. -/
def referenceTarget? (f : Field) : Option String :=
  if f.kind = .reference then f.target else none

/-- Whether an answer must be given. -/
def isMandatory (f : Field) : Bool := f.rules.conformance = .mandatory

end Field
end Questionnaire
