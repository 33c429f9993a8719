import Questionnaire.Package.Encode
import Questionnaire.Toml.Reader

/-
  The settings of the command line.

  Settings are read from a TOML document. Every key may be missing, unknown keys are ignored, and
  a key of the wrong type makes the whole document unusable.
-/

namespace Questionnaire

/-- The settings shared by all commands. -/
structure Settings where
  /-- The language of labels and options. -/
  language : String := defaultLanguage
  /-- Whether JSON is written over several lines. -/
  pretty : Bool := true
  /-- Whether rejected answers make a check fail. -/
  enforceValidation : Bool := false
deriving DecidableEq, Repr

namespace Settings

/-- The value of a key: the default when it is missing, nothing when it has the wrong type. -/
def value? {α : Type} (es : Toml.Entries) (key : String) (default : α)
    (read : Toml.Value → Option α) : Option α :=
  match es.get? key with
  | none => some default
  | some v => read v

/-- A text value. -/
def text? : Toml.Value → Option String
  | .text s => some s
  | _ => none

/-- A truth value. -/
def bool? : Toml.Value → Option Bool
  | .bool b => some b
  | _ => none

/-- The settings of a document. -/
def ofText? (s : String) : Option Settings := do
  let es ← Toml.Entries.ofText? s
  let language ← value? es "language" defaultLanguage text?
  let pretty ← value? es "pretty" true bool?
  let enforceValidation ← value? es "enforce_validation" false bool?
  return { language, pretty, enforceValidation }

/-- The layout of JSON that is written. -/
def layout (s : Settings) : Json.Layout := if s.pretty then Json.pretty else Json.compact

/-- The settings as JSON. -/
def toJson (s : Settings) : Json :=
  .object [("language", .text s.language), ("pretty", .bool s.pretty),
    ("enforce_validation", .bool s.enforceValidation)]

/-! ## Schema -/

/-- The schema of one key. -/
def keySchema (description type : String) (default : Json) : Json :=
  .object [("description", .text description), ("type", .text type), ("default", default)]

/-- The JSON schema of the settings. -/
def schema : Json :=
  let blank : Settings := {}
  .object [
    ("$schema", .text "https://json-schema.org/draft/2020-12/schema"),
    ("title", .text "ToolConfig"),
    ("description", .text "Settings shared by all subcommands."),
    ("type", .text "object"),
    ("properties", .object [
      ("language",
        keySchema "Language used for labels and option checks (`eng`, `fra`, ...)." "string"
          (.text blank.language)),
      ("pretty", keySchema "Pretty-print JSON output." "boolean" (.bool blank.pretty)),
      ("enforce_validation",
        keySchema "Exit with an error when `check` finds invalid answers." "boolean"
          (.bool blank.enforceValidation))])]

end Settings
end Questionnaire
