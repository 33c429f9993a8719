/-
  What can go wrong when something is asked of a form, and its wording.

  Nothing that happens while a package is compiled is an error: a broken part is left out. Errors
  answer a caller who named a unit, a step, a field or a record that is not there.
-/

namespace Questionnaire

/-- An error of a look-up or of a session's action. -/
inductive FormError
  | entityNotFound (id : String)
  | cyclicReference (steps : List String)
  | unknownStep (id : String)
  | unknownField (step field : String)
  | notAReference (field : String)
  | unknownChild (id : String)
  | stepOutOfRange (index count : Nat)
  | nothingToRender
deriving DecidableEq, Repr

/-- A quoted name inside a message. -/
def ticked (name : String) : String := "`" ++ name ++ "`"

/-- A natural number inside a message. -/
def decimal (n : Nat) : String := String.ofList (Nat.toDigits 10 n)

/-- Names in a row. -/
def commaSeparated (names : List String) : String := String.intercalate ", " names

/-- The wording of an error. -/
def FormError.message : FormError → String
  | .entityNotFound id => "entity not found: " ++ id
  | .cyclicReference steps => "cyclic reference between steps: " ++ commaSeparated steps
  | .unknownStep id => "unknown step: " ++ id
  | .unknownField step field =>
    "field " ++ ticked field ++ " does not belong to step " ++ ticked step
  | .notAReference field => "field " ++ ticked field ++ " is not a navigable reference"
  | .unknownChild id => "unknown child record: " ++ id
  | .stepOutOfRange index count =>
    "step index " ++ decimal index ++ " out of range (form has " ++ decimal count ++ " steps)"
  | .nothingToRender => "the package has no presentations to render"

/-- Why an answer is rejected, in the order in which the rules are applied. -/
inductive Rejection
  | required
  | formatMismatch
  | entryCodeMismatch
  | invalidEncoding
  | optionMismatch
deriving DecidableEq, Repr

/-- The wording of a rejection. -/
def Rejection.message : Rejection → String
  | .required => "this field is required"
  | .formatMismatch => "value does not match the expected format"
  | .entryCodeMismatch => "value is not an allowed entry code"
  | .invalidEncoding => "value is not valid UTF-8 text"
  | .optionMismatch => "value is not one of the offered options"

/-- Steps that reference each other in a circle, or can only be reached through one. -/
structure CyclicReferences where
  unresolved : List String
deriving DecidableEq, Repr

/-- The error that a caller makes of a circle. -/
def CyclicReferences.error (c : CyclicReferences) : FormError := .cyclicReference c.unresolved

/-- The wording of a circle. -/
def CyclicReferences.message (c : CyclicReferences) : String := c.error.message

end Questionnaire
